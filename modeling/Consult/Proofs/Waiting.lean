import Consult.Attribution
import Consult.Proofs.Evaluation

/-!
# What findings wait for

`Finding.unknownFacts` weighs the facts that a finding waits for and sorts them.
This file describes them without the weights: `f.Awaits fact` if the fact can be
reached from `f` through grounds that more knowledge could change.  The numbers
decide only the order, so nothing here depends on how they are rounded.

## Main results

* `mem_unknownFacts` — the facts listed are those that the finding awaits.
* `distribute_keeps` — what holds of the totals while shares are passed on.
* `nodup_causes`, `nodup_unknownFacts` — none is listed twice.
* `Condition.exists_leaf_of_awaits` — each is missing for a comparison.
* `Condition.get?_of_awaits` — they are not recorded.
* `Condition.exists_awaits` — an undecided condition awaits at least one.
-/

namespace Consult

namespace Finding

/-- `f.Awaits fact`: the fact is an unknown among the open grounds of `f`, or of
an undecided part of it. -/
inductive Awaits : Finding → String → Prop where
  | unknown {v : Verdict} {gs : List Ground} {fact : String}
      (hmem : .unknown fact ∈ gs) :
      Awaits (.because v gs) fact
  | part {v : Verdict} {gs : List Ground} {f : Finding} {fact : String}
      (hmem : .finding f ∈ gs) (hopen : f.verdict = .maybe) (hpart : Awaits f fact) :
      Awaits (.because v gs) fact

end Finding

/-- The fact is this ground, or awaited by the undecided finding that it is. -/
def Ground.Awaits : Ground → String → Prop
  | .unknown name, fact => fact = name
  | .finding f, fact => f.verdict = .maybe ∧ f.Awaits fact
  | .cause _, _ => False

namespace Finding

theorem awaits_because_iff {v : Verdict} {gs : List Ground} {fact : String} :
    (because v gs).Awaits fact ↔ ∃ g ∈ gs, g.Awaits fact := by
  constructor
  · intro h
    cases h with
    | unknown hmem => exact ⟨_, hmem, rfl⟩
    | part hmem hopen hpart => exact ⟨_, hmem, hopen, hpart⟩
  · rintro ⟨g, hmem, hg⟩
    cases g with
    | unknown name =>
        obtain rfl : fact = name := hg
        exact .unknown hmem
    | finding f => exact .part hmem hg.1 hg.2
    | cause reason => exact hg.elim

@[simp] theorem awaits_missing_iff {fact other : String} :
    (missing fact).Awaits other ↔ other = fact := by
  simp [missing, awaits_because_iff, Ground.Awaits]

/-- The finding on a negation awaits what the finding on its part awaits, if that
is undecided. -/
theorem awaits_negate_iff {f : Finding} {fact : String} :
    f.negate.Awaits fact ↔ f.verdict = .maybe ∧ f.Awaits fact := by
  simp [negate, awaits_because_iff, Ground.Awaits]

/-- A combination of findings awaits what the undecided ones among them await. -/
theorem awaits_because_map_iff {v : Verdict} {fs : List Finding} {fact : String} :
    (because v (fs.map .finding)).Awaits fact ↔
      ∃ f ∈ fs, f.verdict = .maybe ∧ f.Awaits fact := by
  simp [awaits_because_iff, Ground.Awaits]

/-! ## Without the weights -/

section Shares

variable {ω : Type} [Weight ω]

private theorem mem_keys_addShare {fact name : String} {share : ω}
    {totals : List (String × ω)} :
    fact ∈ (addShare name share totals).map (·.1) ↔
      fact = name ∨ fact ∈ totals.map (·.1) := by
  induction totals with
  | nil => simp [addShare]
  | cons e rest ih =>
      rw [addShare]
      by_cases he : e.1 = name
      · rw [if_pos he]
        simp [he]
      · rw [if_neg he, List.map_cons, List.mem_cons, ih, List.map_cons, List.mem_cons]
        exact or_left_comm

/-- A share that is passed on reaches the facts awaited, whatever its size. -/
private theorem mem_keys_distribute (fact : String) (f : Finding) :
    ∀ (share : ω) (totals : List (String × ω)),
      fact ∈ (f.distribute share totals).map (·.1) ↔
        f.Awaits fact ∨ fact ∈ totals.map (·.1) := by
  induction f using Finding.induction with
  | because v gs ih =>
      intro share totals
      rw [distribute, awaits_because_iff]
      generalize Weight.share share (gs.countP Ground.isOpen) = each
      induction gs generalizing totals with
      | nil => simp [Ground.distributeAll]
      | cons g gs ihtail =>
          have hhead : fact ∈ (g.distribute each totals).map (·.1) ↔
              g.Awaits fact ∨ fact ∈ totals.map (·.1) := by
            cases g with
            | unknown name =>
                rw [Ground.distribute]
                exact mem_keys_addShare
            | finding f =>
                rw [Ground.distribute]
                by_cases hopen : f.verdict = .maybe
                · rw [if_pos hopen, ih f List.mem_cons_self]
                  simp [Ground.Awaits, hopen]
                · rw [if_neg hopen]
                  simp [Ground.Awaits, hopen]
            | cause reason =>
                rw [Ground.distribute]
                simp [Ground.Awaits]
          rw [Ground.distributeAll, ihtail fun f hf => ih f (List.mem_cons_of_mem _ hf),
            hhead, List.exists_mem_cons_iff, or_left_comm, or_assoc]

/-- What holds of the totals and outlasts each share that is added holds when a
share has been passed on. -/
theorem distribute_keeps {P : List (String × ω) → Prop} {Q : ω → Prop}
    (hadd : ∀ {fact share totals}, Q share → P totals → P (addShare fact share totals))
    (hshare : ∀ {share n}, 0 < n → Q share → Q (Weight.share share n)) (f : Finding) :
    ∀ {share : ω} {totals : List (String × ω)}, Q share → P totals →
      P (f.distribute share totals) := by
  induction f using Finding.induction with
  | because v gs ih =>
      intro share totals hQ hP
      rw [distribute]
      have heach : ∀ g ∈ gs, g.isOpen = true →
          Q (Weight.share share (gs.countP Ground.isOpen)) := by
        intro g hmem hopen
        exact hshare (List.countP_pos_iff.2 ⟨g, hmem, hopen⟩) hQ
      generalize Weight.share share (gs.countP Ground.isOpen) = each at heach ⊢
      induction gs generalizing totals with
      | nil => exact hP
      | cons g gs ihtail =>
          have hhead : P (g.distribute each totals) := by
            have hQ := heach g List.mem_cons_self
            cases g with
            | unknown name =>
                rw [Ground.distribute]
                exact hadd (hQ rfl) hP
            | finding f =>
                rw [Ground.distribute]
                split
                · next hopen =>
                    exact ih f List.mem_cons_self (hQ (decide_eq_true hopen)) hP
                · exact hP
            | cause reason =>
                rw [Ground.distribute]
                exact hP
          rw [Ground.distributeAll]
          exact ihtail (fun f hf => ih f (List.mem_cons_of_mem _ hf)) hhead
            fun g hmem => heach g (List.mem_cons_of_mem _ hmem)

private theorem nodup_keys_addShare {name : String} {share : ω}
    {totals : List (String × ω)} (h : (totals.map (·.1)).Nodup) :
    ((addShare name share totals).map (·.1)).Nodup := by
  induction totals with
  | nil => simp [addShare]
  | cons e rest ih =>
      rw [addShare]
      by_cases he : e.1 = name
      · rw [if_pos he]
        exact h
      · obtain ⟨hnew, hrest⟩ := List.nodup_cons.1 h
        rw [if_neg he, List.map_cons, List.nodup_cons, mem_keys_addShare]
        exact ⟨fun hmem => hmem.elim he hnew, ih hrest⟩

/-- No fact gets a second total. -/
theorem nodup_causes (f : Finding) : ((f.causes ω).map (·.1)).Nodup := by
  have hsort := (perm_sortHeaviest (f.distribute (Weight.one : ω) [])).map (·.1)
  rw [causes, hsort.nodup_iff]
  exact f.distribute_keeps
    (P := fun totals : List (String × ω) => (totals.map Prod.fst).Nodup)
    (Q := fun _ => True) (fun _ h => nodup_keys_addShare h) (fun _ _ => trivial) trivial
    List.nodup_nil

end Shares

/-- No fact is listed twice. -/
theorem nodup_unknownFacts (f : Finding) : f.unknownFacts.Nodup := f.nodup_causes

/-- The facts listed are those that the finding awaits. -/
theorem mem_unknownFacts {f : Finding} {fact : String} :
    fact ∈ f.unknownFacts ↔ f.Awaits fact := by
  have hsort := (perm_sortHeaviest (f.distribute (Weight.one : Float) [])).map (·.1)
  rw [unknownFacts, causes, hsort.mem_iff, mem_keys_distribute]
  simp

/-- A negation is undecided if what it negates is. -/
theorem verdict_negate_eq_maybe_iff {f : Finding} :
    f.negate.verdict = .maybe ↔ f.verdict = .maybe := by
  rw [verdict_negate]
  cases f.verdict <;> decide

/-- The finding on an undecided group is made up of those on its undecided members. -/
theorem ofGroup_of_maybe {k : Nat} {parts : List Finding}
    (hmaybe : (ofGroup k parts).verdict = .maybe) :
    ofGroup k parts =
      .because .maybe ((parts.filter (·.verdict = .maybe)).map .finding) := by
  rw [verdict_ofGroup] at hmaybe
  unfold ofGroup
  simp [hmaybe]

/-- An undecided group has an undecided member, or there would be as many that hold as
are needed, or too few. -/
theorem exists_undecided_of_ofGroup {k : Nat} {parts : List Finding}
    (hmaybe : (ofGroup k parts).verdict = .maybe) :
    ∃ f ∈ parts, f.verdict = .maybe := by
  rw [verdict_ofGroup] at hmaybe
  have hcount : 0 < (parts.map verdict).count .maybe := by
    unfold Verdict.atLeast Verdict.ofCounts at hmaybe
    split at hmaybe
    · cases hmaybe
    · split at hmaybe
      · omega
      · cases hmaybe
  exact List.mem_map.1 (List.count_pos_iff.1 hcount)

/-- An undecided group awaits what its undecided members await. -/
theorem awaits_ofGroup_iff {k : Nat} {parts : List Finding}
    (hmaybe : (ofGroup k parts).verdict = .maybe) {fact : String} :
    (ofGroup k parts).Awaits fact ↔ ∃ f ∈ parts, f.verdict = .maybe ∧
      f.Awaits fact := by
  rw [ofGroup_of_maybe hmaybe, awaits_because_map_iff]
  constructor
  · rintro ⟨f, hmem, hopen, hawaits⟩
    exact ⟨f, List.mem_of_mem_filter hmem, hopen, hawaits⟩
  · rintro ⟨f, hmem, hopen, hawaits⟩
    exact ⟨f, List.mem_filter.2 ⟨hmem, by simpa using hopen⟩, hopen, hawaits⟩

end Finding

/-! ## Conditions -/

/-- A fact that is missing for a comparison is not recorded. -/
theorem Comparison.Found.get?_of_missing {c : Comparison} {facts : Facts}
    {fact : String} (h : c.Found facts (.missing fact)) : facts.get? fact = none := by
  generalize hf : Finding.missing fact = f at h
  cases h with
  | name hname =>
      cases hf
      exact Facts.get?_of_resolve_unknown hname
  | fact hname hnone =>
      cases hf
      exact hnone
  | value hname hget hvalue =>
      cases hf
      exact Facts.get?_of_resolve_unknown hvalue
  | expected hname hget hvalue hexpected =>
      cases hf
      exact Facts.get?_of_resolve_unknown hexpected
  | settled hname hget hvalue hexpected => simp [Finding.missing] at hf

/-- An undecided comparison misses one fact. -/
theorem Comparison.Found.eq_missing {c : Comparison} {facts : Facts} {f : Finding}
    (h : c.Found facts f) (hmaybe : f.verdict = .maybe) :
    ∃ fact, f = .missing fact := by
  cases h with
  | settled _ _ _ _ =>
      rw [Finding.verdict_because] at hmaybe
      split at hmaybe <;> cases hmaybe
  | _ => exact ⟨_, rfl⟩

namespace Condition

variable {facts : Facts}

/-- What the finding on a group awaits is awaited by the finding on a member. -/
private theorem awaits_of_ofGroup {k : Nat} {cs : List Condition} {parts : List Finding}
    (hparts : List.Forall₂ (fun c f => evaluate facts c = .ok f) cs parts)
    {fact : String} (h : (Finding.ofGroup k parts).Awaits fact) :
    ∃ c ∈ cs, ∃ part, c.evaluate facts = .ok part ∧ part.verdict = .maybe ∧
      part.Awaits fact := by
  obtain ⟨bearing, hgroup, hbearing⟩ := exists_grounds_of_ofGroup (k := k) hparts
  rw [hgroup] at h
  obtain ⟨part, hmem, hopen, hpart⟩ := Finding.awaits_because_map_iff.1 h
  obtain ⟨c, hc, heval⟩ := hbearing part hmem
  exact ⟨c, hc, part, heval, hopen, hpart⟩

/-- What a finding awaits is missing for one of the comparisons in the condition. -/
theorem exists_leaf_of_awaits (c : Condition) : ∀ {f : Finding} {fact : String},
    c.evaluate facts = .ok f → f.Awaits fact →
      ∃ leaf ∈ c.leaves, leaf.evaluate facts = .ok (.missing fact) := by
  induction c using Condition.induction with
  | compare c =>
      intro f fact hf hawaits
      have hfound := evaluate_compare_eq_ok_iff.1 hf
      refine ⟨c, by simp, Comparison.evaluate_eq_ok_iff.2 ?_⟩
      cases hfound with
      | name hname =>
          obtain rfl := Finding.awaits_missing_iff.1 hawaits
          exact .name hname
      | fact hname hnone =>
          obtain rfl := Finding.awaits_missing_iff.1 hawaits
          exact .fact hname hnone
      | value hname hget hvalue =>
          obtain rfl := Finding.awaits_missing_iff.1 hawaits
          exact .value hname hget hvalue
      | expected hname hget hvalue hexpected =>
          obtain rfl := Finding.awaits_missing_iff.1 hawaits
          exact .expected hname hget hvalue hexpected
      | settled hname hget hvalue hexpected =>
          simp [Finding.awaits_because_iff, Ground.Awaits] at hawaits
  | negation c ih =>
      intro f fact hf hawaits
      obtain ⟨part, hpart, rfl⟩ := evaluate_negation_eq_ok_iff.1 hf
      exact ih hpart (Finding.awaits_negate_iff.1 hawaits).2
  | atLeast k cs ih =>
      intro f fact hf hawaits
      obtain ⟨parts, hparts, rfl⟩ := evaluate_atLeast_eq_ok_iff.1 hf
      obtain ⟨c, hc, part, hpart, -, hawaits⟩ := awaits_of_ofGroup hparts hawaits
      obtain ⟨leaf, hleaf, hmissing⟩ := ih c hc hpart hawaits
      exact ⟨leaf, mem_leaves_atLeast.2 ⟨c, hc, hleaf⟩, hmissing⟩

/-- A finding awaits facts that are not recorded. -/
theorem get?_of_awaits (c : Condition) {f : Finding} {fact : String}
    (hf : c.evaluate facts = .ok f) (hawaits : f.Awaits fact) :
    facts.get? fact = none := by
  obtain ⟨leaf, -, hmissing⟩ := c.exists_leaf_of_awaits hf hawaits
  exact (Comparison.evaluate_eq_ok_iff.1 hmissing).get?_of_missing

/-- An undecided condition awaits a fact. -/
theorem exists_awaits (c : Condition) : ∀ {f : Finding},
    c.evaluate facts = .ok f → f.verdict = .maybe → ∃ fact, f.Awaits fact := by
  induction c using Condition.induction with
  | compare c =>
      intro f hf hmaybe
      obtain ⟨fact, rfl⟩ := (evaluate_compare_eq_ok_iff.1 hf).eq_missing hmaybe
      exact ⟨fact, Finding.awaits_missing_iff.2 rfl⟩
  | negation c ih =>
      intro f hf hmaybe
      obtain ⟨part, hpart, rfl⟩ := evaluate_negation_eq_ok_iff.1 hf
      have hopen := Finding.verdict_negate_eq_maybe_iff.1 hmaybe
      obtain ⟨fact, hawaits⟩ := ih hpart hopen
      exact ⟨fact, Finding.awaits_negate_iff.2 ⟨hopen, hawaits⟩⟩
  | atLeast k cs ih =>
      intro f hf hmaybe
      obtain ⟨parts, hparts, rfl⟩ := evaluate_atLeast_eq_ok_iff.1 hf
      obtain ⟨part, hmem, hopen⟩ := Finding.exists_undecided_of_ofGroup hmaybe
      obtain ⟨c, hc, heval⟩ := exists_mem_of_forall₂_evaluate hparts hmem
      obtain ⟨fact, hawaits⟩ := ih c hc heval hopen
      exact ⟨fact, (Finding.awaits_ofGroup_iff hmaybe).2 ⟨part, hmem, hopen, hawaits⟩⟩

end Condition

end Consult
