import Consult.Proofs.Chain
import Mathlib.Data.List.Nodup

/-!
# The trail of a chain of variables

A variable leads to the value of its fact, this to the next one, and so on: the texts
that are passed are the trail of the chain.  A trail may come to an end, because a
text is a literal or because its fact is not recorded, or it may come back to a text
that it has passed; there is no other way to go on for ever, as every text that is
passed has a recorded fact of its own.

`Facts.resolve` goes along the trail and keeps a list of what it has passed.  Its
bound on the number of links never makes a difference: `Facts.Follows` is the same
loop without a bound, which says how many rounds it takes, and `follows_follow`
shows that the two agree.

## Main results

* `Passed.length_le` — no more texts are passed than there are facts.
* `exists_follows_iff` — the loop ends as the trail does.
* `resolve_follows_trail` — where a text leads, after how many rounds, and when this
  is final.
-/

namespace Consult

namespace Facts

/-! ## Trails -/

/-- The text that a text leads to: the value of its fact, if it is a variable and
its fact is recorded. -/
def next? (facts : Facts) (text : String) : Option String :=
  (target? text).bind fun fact => (facts.get? fact).map (·.value)

/-- `facts.Trail text trail`: the texts of `trail` are passed one after the
other, from `text` on. -/
inductive Trail (facts : Facts) : String → List String → Prop where
  | here (text : String) : Trail facts text [text]
  | link {text other : String} {trail : List String}
      (hnext : facts.next? text = some other)
      (hrest : Trail facts other trail) : Trail facts text (text :: trail)

/-- How a trail ends, and what is found then: at a literal or at a fact that
is not recorded, when no text has been passed twice, or at the first text that
has been passed before. -/
inductive Ends (facts : Facts) (trail : List String) :
    Except Fault Resolution → Prop where
  | literal {value : String} (hnodup : trail.Nodup)
      (hlast : trail.getLast? = some value)
      (hliteral : isVariable value = false) : Ends facts trail (.ok (.literal value))
  | unknown {text fact : String} (hnodup : trail.Nodup)
      (hlast : trail.getLast? = some text)
      (ht : target? text = some fact) (hnone : facts.get? fact = none) :
      Ends facts trail (.ok (.unknown fact))
  | circular {text : String} (hnodup : trail.dropLast.Nodup)
      (hlast : trail.getLast? = some text)
      (honce : trail.dropLast.count text = 1) :
        Ends facts trail (.error (.circular trail))

/-- `facts.Follows visited text rounds r`: following the chain from `text`, with no
bound on the rounds, takes this many and finds `r`; `visited` holds the variables met
before, the latest first. -/
inductive Follows (facts : Facts) :
    List String → String → Nat → Except Fault Resolution → Prop where
  | literal {visited : List String} {text : String} (ht : target? text = none) :
      Follows facts visited text 0 (.ok (.literal text))
  | repeated {visited : List String} {text fact : String}
      (ht : target? text = some fact)
      (hmem : text ∈ visited) :
      Follows facts visited text 1 (.error (.circular (text :: visited).reverse))
  | unknown {visited : List String} {text fact : String} (ht : target? text = some fact)
      (hnew : text ∉ visited) (hnone : facts.get? fact = none) :
      Follows facts visited text 1 (.ok (.unknown fact))
  | link {visited : List String} {text fact : String} {record : Record} {rounds : Nat}
      {r : Except Fault Resolution} (ht : target? text = some fact)
        (hnew : text ∉ visited)
      (hget : facts.get? fact = some record)
      (hrest : Follows facts (text :: visited) record.value rounds r) :
      Follows facts visited text (rounds + 1) r

variable {facts : Facts}

theorem next?_eq_some_iff {text other : String} : facts.next? text = some other ↔
    ∃ fact record, target? text = some fact ∧ facts.get? fact = some record ∧
      record.value = other := by
  simp only [next?, Option.bind_eq_some_iff, Option.map_eq_some_iff]
  constructor
  · rintro ⟨fact, ht, record, hget, hvalue⟩
    exact ⟨fact, record, ht, hget, hvalue⟩
  · rintro ⟨fact, record, ht, hget, hvalue⟩
    exact ⟨fact, ht, record, hget, hvalue⟩

theorem Trail.ne_nil {text : String} {trail : List String}
    (h : facts.Trail text trail) :
    trail ≠ [] := by
  cases h <;> exact List.cons_ne_nil _ _

/-- Whatever is found, nothing has been passed twice before the end. -/
theorem Ends.nodup {trail : List String} {r : Except Fault Resolution}
    (h : facts.Ends trail r) : trail.dropLast.Nodup := by
  cases h with
  | literal hnodup _ _ => exact hnodup.sublist trail.dropLast_sublist
  | unknown hnodup _ _ _ => exact hnodup.sublist trail.dropLast_sublist
  | circular hnodup _ _ => exact hnodup

/-! ## What has been passed -/

/-- The texts differ from each other, and every one of them leads on. -/
structure Passed (facts : Facts) (visited : List String) : Prop where
  nodup : visited.Nodup
  leads : ∀ text ∈ visited, ∃ other, facts.next? text = some other

theorem passed_nil : facts.Passed [] := ⟨List.nodup_nil, by simp⟩

theorem Passed.cons {visited : List String} {text other : String}
    (h : facts.Passed visited) (hnew : text ∉ visited)
    (hnext : facts.next? text = some other) :
    facts.Passed (text :: visited) where
  nodup := List.nodup_cons.2 ⟨hnew, h.nodup⟩
  leads := List.forall_mem_cons.2 ⟨⟨other, hnext⟩, h.leads⟩

/-- A literal leads nowhere, so it has not been passed. -/
theorem Passed.notMem {visited : List String} {text : String} (h : facts.Passed visited)
    (ht : target? text = none) : text ∉ visited := by
  intro hmem
  obtain ⟨other, hnext⟩ := h.leads text hmem
  simp [next?, ht] at hnext

/-- A variable is a dollar sign and the fact that it refers to. -/
theorem eq_of_target? {text fact : String} (h : target? text = some fact) :
    text = .ofList ('$' :: fact.toList) := by
  unfold target? at h
  split at h
  · next c cs htext =>
    obtain rfl := Option.some.inj h
    rw [String.toList_ofList, ← htext, String.ofList_toList]
  · cases h

/-- No more texts are passed than there are facts, since each has a fact of its own. -/
theorem Passed.length_le {visited : List String} (h : facts.Passed visited) :
    visited.length ≤ facts.size := by
  have hsub : visited ⊆ facts.keys.map fun fact => .ofList ('$' :: fact.toList) := by
    intro text hmem
    obtain ⟨other, hnext⟩ := h.leads text hmem
    obtain ⟨fact, record, ht, hget, -⟩ := next?_eq_some_iff.1 hnext
    exact List.mem_map.2 ⟨fact, KeyMap.mem_keys_iff.2 ⟨record, hget⟩,
      (eq_of_target? ht).symm⟩
  have hlength := (List.subperm_of_subset h.nodup hsub).length_le
  simpa [KeyMap.keys, KeyMap.size] using hlength

/-! ## Following without a bound -/

/-- There is one way to follow a chain. -/
theorem Follows.unique {visited : List String} {text : String} {rounds rounds' : Nat}
    {r r' : Except Fault Resolution} (h : facts.Follows visited text rounds r)
    (h' : facts.Follows visited text rounds' r') : rounds' = rounds ∧ r' = r := by
  induction h generalizing rounds' with
  | literal ht =>
      cases h' with
      | literal _ => exact ⟨rfl, rfl⟩
      | repeated ht' _ => simp [ht] at ht'
      | unknown ht' _ _ => simp [ht] at ht'
      | link ht' _ _ _ => simp [ht] at ht'
  | repeated ht hmem =>
      cases h' with
      | literal ht' => simp [ht] at ht'
      | repeated _ _ => exact ⟨rfl, rfl⟩
      | unknown _ hnew _ => exact absurd hmem hnew
      | link _ hnew _ _ => exact absurd hmem hnew
  | unknown ht hnew hnone =>
      cases h' with
      | literal ht' => simp [ht] at ht'
      | repeated _ hmem => exact absurd hmem hnew
      | unknown ht' _ _ =>
          obtain rfl : _ = _ := Option.some.inj (ht.symm.trans ht')
          exact ⟨rfl, rfl⟩
      | link ht' _ hget _ =>
          obtain rfl : _ = _ := Option.some.inj (ht.symm.trans ht')
          simp [hnone] at hget
  | link ht hnew hget _ ih =>
      cases h' with
      | literal ht' => simp [ht] at ht'
      | repeated _ hmem => exact absurd hmem hnew
      | unknown ht' _ hnone =>
          obtain rfl : _ = _ := Option.some.inj (ht.symm.trans ht')
          simp [hnone] at hget
      | link ht' _ hget' hrest' =>
          obtain rfl : _ = _ := Option.some.inj (ht.symm.trans ht')
          obtain rfl : _ = _ := Option.some.inj (hget.symm.trans hget')
          obtain ⟨rfl, rfl⟩ := ih hrest'
          exact ⟨rfl, rfl⟩

/-- If the links that are left and those behind make up for all facts, the
bound is never reached. -/
theorem follows_follow {links : Nat} {visited : List String} {text : String}
    (hpassed : facts.Passed visited) (hlinks : facts.size ≤ links + visited.length) :
    ∃ rounds ≤ links + 1, facts.Follows visited text rounds
      (facts.follow links visited text) := by
  fun_induction follow facts links visited text with
  | case1 links visited text ht => exact ⟨0, by omega, .literal ht⟩
  | case2 links visited text fact ht hmem => exact ⟨1, by omega, .repeated ht hmem⟩
  | case3 links visited text fact ht hnew hnone =>
      exact ⟨1, by omega, .unknown ht hnew hnone⟩
  | case4 visited text fact ht hnew record hget =>
      -- No links are left, so one text more would have been passed
      -- than there are facts.
      have hnext := next?_eq_some_iff.2 ⟨fact, record, ht, hget, rfl⟩
      have hlength := (hpassed.cons hnew hnext).length_le
      rw [List.length_cons] at hlength
      omega
  | case5 visited text fact ht hnew record hget links ih =>
      have hnext := next?_eq_some_iff.2 ⟨fact, record, ht, hget, rfl⟩
      have hleft : facts.size ≤ links + (text :: visited).length := by
        rw [List.length_cons]
        omega
      obtain ⟨rounds, hrounds, hrest⟩ := ih (hpassed.cons hnew hnext) hleft
      exact ⟨rounds + 1, by omega, .link ht hnew hget hrest⟩

/-! ## Following is going along the trail -/

/-- What is found is found where the trail ends, if what has been
passed is counted in. -/
theorem Follows.ends {visited : List String} {text : String} {rounds : Nat}
    {r : Except Fault Resolution} (h : facts.Follows visited text rounds r) :
    facts.Passed visited →
      ∃ trail, facts.Trail text trail ∧ facts.Ends (visited.reverse ++ trail) r := by
  induction h with
  | @literal visited text ht =>
      intro hpassed
      refine ⟨[text], .here text,
        .literal ?_ List.getLast?_concat (by simp [isVariable, ht])⟩
      rw [← List.reverse_cons, List.nodup_reverse]
      exact List.nodup_cons.2 ⟨hpassed.notMem ht, hpassed.nodup⟩
  | @repeated visited text fact ht hmem =>
      intro hpassed
      refine ⟨[text], .here text, ?_⟩
      rw [List.reverse_cons]
      refine .circular ?_ List.getLast?_concat ?_
      · rw [List.dropLast_concat, List.nodup_reverse]
        exact hpassed.nodup
      · rw [List.dropLast_concat, List.count_reverse]
        exact List.count_eq_one_of_mem hpassed.nodup hmem
  | @unknown visited text fact ht hnew hnone =>
      intro hpassed
      refine ⟨[text], .here text, .unknown ?_ List.getLast?_concat ht hnone⟩
      rw [← List.reverse_cons, List.nodup_reverse]
      exact List.nodup_cons.2 ⟨hnew, hpassed.nodup⟩
  | @link visited text fact record rounds r ht hnew hget _ ih =>
      intro hpassed
      have hnext := next?_eq_some_iff.2 ⟨fact, record, ht, hget, rfl⟩
      obtain ⟨trail, htrail, hends⟩ := ih (hpassed.cons hnew hnext)
      refine ⟨text :: trail, .link hnext htrail, ?_⟩
      rwa [List.reverse_cons, List.append_assoc, List.singleton_append] at hends

/-- A trail that ends is followed to its end. -/
theorem Trail.follows {text : String} {trail : List String}
    {r : Except Fault Resolution} (h : facts.Trail text trail) :
    ∀ {visited : List String}, facts.Passed visited →
      facts.Ends (visited.reverse ++ trail) r →
        ∃ rounds, facts.Follows visited text rounds r := by
  induction h with
  | here text =>
      intro visited hpassed hends
      have hsplit : (visited.reverse ++ [text]).dropLast = visited.reverse :=
        List.dropLast_concat
      cases hends with
      | literal _ hlast hliteral =>
          obtain rfl := Option.some.inj (List.getLast?_concat.symm.trans hlast)
          exact ⟨0, .literal (target?_eq_none hliteral)⟩
      | unknown hnodup hlast ht hnone =>
          obtain rfl := Option.some.inj (List.getLast?_concat.symm.trans hlast)
          rw [← List.reverse_cons, List.nodup_reverse] at hnodup
          exact ⟨1, .unknown ht (List.nodup_cons.1 hnodup).1 hnone⟩
      | circular _ hlast honce =>
          obtain rfl := Option.some.inj (List.getLast?_concat.symm.trans hlast)
          rw [hsplit, List.count_reverse] at honce
          have hmem : text ∈ visited := List.count_pos_iff.1 (by omega)
          obtain ⟨other, hnext⟩ := hpassed.leads text hmem
          obtain ⟨fact, record, ht, -, -⟩ := next?_eq_some_iff.1 hnext
          rw [← List.reverse_cons]
          exact ⟨1, .repeated ht hmem⟩
  | @link text other trail hnext hrest ih =>
      intro visited hpassed hends
      have hnew : text ∉ visited := by
        have hnodup := hends.nodup
        rw [List.dropLast_append_of_ne_nil (List.cons_ne_nil _ _),
          List.dropLast_cons_of_ne_nil hrest.ne_nil, List.nodup_append] at hnodup
        exact fun hmem => hnodup.2.2 text
          (List.mem_reverse.2 hmem) text List.mem_cons_self rfl
      have hends' : facts.Ends ((text :: visited).reverse ++ trail) r := by
        rwa [List.reverse_cons, List.append_assoc, List.singleton_append]
      obtain ⟨rounds, hfollows⟩ := ih (hpassed.cons hnew hnext) hends'
      obtain ⟨fact, record, ht, hget, rfl⟩ := next?_eq_some_iff.1 hnext
      exact ⟨rounds + 1, .link ht hnew hget hfollows⟩

/-- The loop ends as the trail does. -/
theorem exists_follows_iff {text : String} {r : Except Fault Resolution} :
    (∃ rounds, facts.Follows [] text rounds r) ↔
      ∃ trail, facts.Trail text trail ∧ facts.Ends trail r := by
  constructor
  · rintro ⟨rounds, hfollows⟩
    exact hfollows.ends passed_nil
  · rintro ⟨trail, htrail, hends⟩
    exact htrail.follows passed_nil hends

/-- The loop ends after one round more than there are facts at the latest,
with what is resolved. -/
theorem exists_follows_resolve (facts : Facts) (text : String) :
    ∃ rounds ≤ facts.size + 1, facts.Follows [] text rounds (facts.resolve text) :=
  follows_follow passed_nil (by simp)

theorem resolve_eq_iff {text : String} {r : Except Fault Resolution} :
    facts.resolve text = r ↔ ∃ trail, facts.Trail text trail ∧ facts.Ends trail r := by
  obtain ⟨rounds, -, hresolve⟩ := exists_follows_resolve facts text
  rw [← exists_follows_iff]
  constructor
  · rintro rfl
    exact ⟨rounds, hresolve⟩
  · rintro ⟨rounds', hfollows⟩
    exact (hfollows.unique hresolve).2

/-! ## More facts -/

variable {facts' : Facts}

theorem Extends.next? (h : facts'.Extends facts) {text other : String}
    (hnext : facts.next? text = some other) : facts'.next? text = some other := by
  obtain ⟨fact, record, ht, hget, hvalue⟩ := next?_eq_some_iff.1 hnext
  obtain ⟨record', hget', hsame⟩ := h fact record hget
  exact next?_eq_some_iff.2 ⟨fact, record', ht, hget', hsame.trans hvalue⟩

/-- The trail passes the same texts when facts are added. -/
theorem Trail.of_extends (h : facts'.Extends facts) {text : String}
    {trail : List String} (htrail : facts.Trail text trail) :
    facts'.Trail text trail := by
  induction htrail with
  | here text => exact .here text
  | link hnext _ ih => exact .link (h.next? hnext) ih

/-- What is found is the same when facts are added, unless a fact was not recorded. -/
theorem Ends.of_extends {trail : List String} {r : Except Fault Resolution}
    (hends : facts.Ends trail r) (hknown : ∀ fact, r ≠ .ok (.unknown fact)) :
    facts'.Ends trail r := by
  cases hends with
  | literal hnodup hlast hliteral => exact .literal hnodup hlast hliteral
  | unknown _ _ _ _ => exact absurd rfl (hknown _)
  | circular hnodup hlast honce => exact .circular hnodup hlast honce

/-- A text leads to where its trail ends: to a literal or to a fact that is not
recorded, if the trail comes there without passing a text twice; otherwise the fault
names the trail up to the first text that had been passed before.  It is followed in
one way, which takes at most one round more than there are facts.  Adding facts makes
no difference unless a fact was not recorded. -/
theorem resolve_follows_trail (facts : Facts) (text : String) :
    (∀ r, facts.resolve text = r ↔
      ∃ trail, facts.Trail text trail ∧ facts.Ends trail r) ∧
      (∃ rounds ≤ facts.size + 1, ∀ rounds' r,
        facts.Follows [] text rounds' r ↔ rounds' = rounds ∧ r = facts.resolve text) ∧
      ∀ facts' : Facts, facts'.Extends facts →
        (∀ fact, facts.resolve text ≠ .ok (.unknown fact)) →
          facts'.resolve text = facts.resolve text := by
  refine ⟨fun r => resolve_eq_iff, ?rounds, ?more⟩
  case rounds =>
    obtain ⟨rounds, hrounds, hresolve⟩ := exists_follows_resolve facts text
    refine ⟨rounds, hrounds, fun rounds' r => ⟨fun h => hresolve.unique h, ?_⟩⟩
    rintro ⟨rfl, rfl⟩
    exact hresolve
  case more =>
    intro facts' hmore hknown
    obtain ⟨trail, htrail, hends⟩ := resolve_eq_iff.1 (rfl : facts.resolve text = _)
    exact resolve_eq_iff.2 ⟨trail, htrail.of_extends hmore, hends.of_extends hknown⟩

/-- The way out as the signs show it.  The stairs and the hall refer to each
other, the door to what is written on a second sign, and the window to a
ladder that is not there. -/
def signFacts : Facts :=
  .ofList [("exit", ⟨"$stairs", .given "A sign"⟩),
    ("stairs", ⟨"$hall", .given "A sign"⟩), ("hall", ⟨"$stairs", .given "A sign"⟩),
    ("door", ⟨"$$bolt", .given "A sign"⟩), ("$bolt", ⟨"drawn", .given "A sign"⟩),
    ("window", ⟨"$ladder", .given "A sign"⟩)]

/-- The signs when the ladder has been brought. -/
def signFactsWithLadder : Facts := signFacts.insert "ladder" ⟨"up", .given "A sign"⟩

theorem extends_signFactsWithLadder : signFactsWithLadder.Extends signFacts :=
  extends_insert _ (by decide +kernel)

/-- One ends up between stairs and hall, whether or not there is a ladder. -/
theorem signs_lead_round :
    signFacts.resolve "$exit" =
      .error (.circular ["$exit", "$stairs", "$hall", "$stairs"]) ∧
      signFacts.resolve "$door" = .ok (.literal "drawn") ∧
      signFacts.resolve "$window" = .ok (.unknown "ladder") ∧
      (∃ rounds ≤ 7, signFacts.Follows [] "$exit" rounds (signFacts.resolve "$exit")) ∧
      signFactsWithLadder.Extends signFacts ∧
      signFactsWithLadder.resolve "$exit" = signFacts.resolve "$exit" ∧
      signFactsWithLadder.resolve "$door" = signFacts.resolve "$door" := by
  obtain ⟨hexit, ⟨rounds, hrounds, hfollows⟩, hexitMore⟩ :=
    resolve_follows_trail signFacts "$exit"
  obtain ⟨hdoor, -, hdoorMore⟩ := resolve_follows_trail signFacts "$door"
  obtain ⟨hwindow, -, -⟩ := resolve_follows_trail signFacts "$window"
  have hround := (hexit (.error (.circular ["$exit", "$stairs", "$hall", "$stairs"]))).2
    ⟨["$exit", "$stairs", "$hall", "$stairs"],
      .link (by decide +kernel)
      (.link (by decide +kernel) (.link (by decide +kernel) (.here _))),
      .circular (by decide) rfl (by decide)⟩
  have hdrawn := (hdoor (.ok (.literal "drawn"))).2
    ⟨["$door", "$$bolt", "drawn"],
      .link (by decide +kernel) (.link (by decide +kernel) (.here _)),
      .literal (by decide) rfl (by decide)⟩
  have hladder := (hwindow (.ok (.unknown "ladder"))).2
    ⟨["$window", "$ladder"], .link (by decide +kernel) (.here _),
      .unknown (by decide) rfl (by decide) (by decide +kernel)⟩
  exact ⟨hround, hdrawn, hladder, ⟨rounds, hrounds, (hfollows rounds _).2 ⟨rfl, rfl⟩⟩,
    extends_signFactsWithLadder,
    hexitMore _ extends_signFactsWithLadder (by rw [hround]; nofun),
    hdoorMore _ extends_signFactsWithLadder (by rw [hdrawn]; nofun)⟩

end Facts

end Consult
