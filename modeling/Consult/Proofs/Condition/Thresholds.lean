import Consult.Proofs.Condition.Complement
import Consult.Proofs.Condition.Simplify
import Mathlib.Data.Nat.PSub

/-!
# Thresholds stay satisfiable

In a checked condition no group asks for more members than it has.  Rewriting relies on
it: the complement of "at least `k` of `n`" needs `n - k + 1` members, and nothing but
the check keeps the difference from falling below zero.  `complement?` takes the
complement with a subtraction that is not defined then, so that it has a result only
if each difference on the way exists.

Rewriting also keeps what it relies on, hence may be repeated.  The complement of a
group has as many members as the group and needs at least one of them, so it needs no
more than all.  Simplifying changes the number of members, but of the groups that it
touches a conjunction needs all that are left, and a disjunction needs one and is left
with one, since each nested disjunction that is merged has a member of its own.

## Main results

* `eq_complement_of_complement?` — where each difference exists, the
  result is the complement.
* `complement?_of_eachGroup` — no difference falls below zero.
* `eachGroup_complement`, `eachGroup_simplify` — what is rewritten stays checked.
* `rewriting_keeps_thresholds` — both hold along every sequence of rewritings.
-/

namespace Consult

namespace Condition

variable {range : ValueRange} {every : Bool} {c d : Condition} {cs : List Condition}

/-! ## Differences -/

mutual

/-- The complement of a condition, unless a difference that it takes falls below
zero. -/
def complement? (range : ValueRange) : Condition → Option Condition
  | .compare c => return complementOf range c
  | .negation c => return c
  | .atLeast k cs =>
    if k = 0 then return .negation (.atLeast k cs)
    else do
      let spare ← Nat.psub cs.length k
      let complements ← complementList? range cs
      return .atLeast (spare + 1) complements
termination_by structural c => c

/-- The complements of the conditions in a list, unless a difference falls below
zero. -/
def complementList? (range : ValueRange) : List Condition → Option (List Condition)
  | [] => return []
  | c :: cs => do
    let d ← c.complement? range
    let ds ← complementList? range cs
    return d :: ds
termination_by structural cs => cs

end

private theorem eq_map_of_complementList?
    (h : ∀ c ∈ cs, ∀ {d}, c.complement? range = some d → d = c.complement range) :
    ∀ {ds : List Condition}, complementList? range cs = some ds →
      ds = cs.map (complement range) := by
  induction cs with
  | nil =>
      intro ds hds
      exact (Option.some.inj hds).symm
  | cons c cs ih =>
      intro ds hds
      rw [complementList?] at hds
      obtain ⟨d, hd, hds⟩ := Option.bind_eq_some_iff.1 hds
      obtain ⟨ds', hds', hds⟩ := Option.bind_eq_some_iff.1 hds
      have hfirst : d = c.complement range := h c List.mem_cons_self hd
      have hrest : ds' = cs.map (complement range) :=
        ih (fun e he => h e (List.mem_cons_of_mem _ he)) hds'
      rw [← Option.some.inj hds, List.map_cons, hfirst, hrest]

/-- If no difference falls below zero, the result is the complement. -/
theorem eq_complement_of_complement? (c : Condition) :
    ∀ {d : Condition}, c.complement? range = some d → d = c.complement range := by
  induction c using Condition.induction with
  | compare c => exact fun h => (Option.some.inj h).symm
  | negation c _ => exact fun h => (Option.some.inj h).symm
  | atLeast k cs ih =>
      intro d h
      rw [complement?] at h
      by_cases hk : k = 0
      · rw [if_pos hk] at h
        rw [complement, if_pos hk]
        exact (Option.some.inj h).symm
      · rw [if_neg hk] at h
        obtain ⟨spare, hspare, h⟩ := Option.bind_eq_some_iff.1 h
        obtain ⟨ds, hds, h⟩ := Option.bind_eq_some_iff.1 h
        have hdifference : spare + k = cs.length := Nat.psub_eq_some.1 hspare
        rw [complement_atLeast hk, ← Option.some.inj h,
          eq_map_of_complementList? ih hds]
        congr 1
        omega

private theorem complementList?_eq_some
    (h : ∀ c ∈ cs, c.complement? range = some (c.complement range)) :
    complementList? range cs = some (cs.map (complement range)) := by
  induction cs with
  | nil => rfl
  | cons c cs ih =>
      obtain ⟨hfirst, hrest⟩ := List.forall_mem_cons.1 h
      rw [complementList?, hfirst, ih hrest]
      rfl

/-- No difference falls below zero where no group asks for more members than it has. -/
theorem complement?_of_eachGroup (h : c.EachGroup (· ≤ ·)) :
    c.complement? range = some (c.complement range) := by
  induction c using Condition.induction with
  | compare c => rfl
  | negation c _ => rfl
  | atLeast k cs ih =>
      obtain ⟨hle, hmembers⟩ := eachGroup_atLeast.1 h
      by_cases hk : k = 0
      · rw [complement?, if_pos hk, complement, if_pos hk]
        rfl
      · have hcomplements := complementList?_eq_some fun c hc => ih c hc (hmembers c hc)
        rw [complement?, if_neg hk, Nat.psub_eq_sub hle, hcomplements,
          complement_atLeast hk]
        rfl

/-- A choice between values of a fact needs one of them, and there is one. -/
theorem eachGroup_choice {name : String} {values : List String} (hne : values ≠ []) :
    (any (values.map (equals name))).EachGroup (· ≤ ·) := by
  rw [any, eachGroup_atLeast, List.length_map, List.forall_mem_map]
  exact ⟨List.length_pos_iff.2 hne, fun _ _ => eachGroup_compare _⟩

/-- In the complement, too, no group asks for more members than it has. -/
theorem eachGroup_complement (h : c.EachGroup (· ≤ ·)) :
    (c.complement range).EachGroup (· ≤ ·) := by
  induction c using Condition.induction with
  | compare c =>
      show (complementOf range c).EachGroup _
      rcases complementOf_cases range c with ⟨-, hne, heq⟩ | ⟨-, heq⟩
      · rw [heq]
        exact eachGroup_choice hne
      · rw [heq]
        exact eachGroup_compare c
  | negation c _ => exact h
  | atLeast k cs ih =>
      by_cases hk : k = 0
      · rw [complement, if_pos hk]
        exact h
      · obtain ⟨hle, hmembers⟩ := eachGroup_atLeast.1 h
        rw [complement_atLeast hk, eachGroup_atLeast, List.length_map,
          List.forall_mem_map]
        refine ⟨?_, fun c hc => ih c hc (hmembers c hc)⟩
        omega

/-! ## Simplifying -/

theorem eachGroup_oneOf {name : String} {values : List String} (hne : values ≠ []) :
    (oneOf name values).EachGroup (· ≤ ·) := by
  rcases oneOf_cases name values with ⟨value, -, heq⟩ | ⟨-, heq⟩
  · rw [heq]
    exact eachGroup_compare _
  · rw [heq]
    exact eachGroup_choice hne

theorem eachGroup_of_merged (h : ∀ c ∈ cs, c.EachGroup (· ≤ ·)) :
    ∀ d ∈ merged every cs, d.EachGroup (· ≤ ·) := by
  intro d hd
  obtain ⟨c, hc, hd⟩ := mem_merged.1 hd
  have hchecked := h c hc
  rcases membersOf_cases every c with ⟨ds, rfl, hmembers⟩ | ⟨-, hmembers⟩
  · rw [joined_eq, eachGroup_atLeast] at hchecked
    exact hchecked.2 d (hmembers ▸ hd)
  · rw [hmembers, List.mem_singleton] at hd
    exact hd ▸ hchecked

/-- A disjunction with members has some left when nested ones are merged. -/
theorem merged_ne_nil (hne : cs ≠ []) (h : ∀ c ∈ cs, c.EachGroup (· ≤ ·)) :
    merged false cs ≠ [] := by
  obtain ⟨c, hc⟩ := List.exists_mem_of_ne_nil cs hne
  have hmember : ∃ d, d ∈ membersOf false c := by
    rcases membersOf_cases false c with ⟨ds, rfl, hmembers⟩ | ⟨-, hmembers⟩
    · have hlength : 1 ≤ ds.length := (eachGroup_atLeast.1 (h _ hc)).1
      rw [hmembers]
      exact List.exists_mem_of_length_pos hlength
    · rw [hmembers]
      exact ⟨c, List.mem_singleton_self c⟩
  obtain ⟨d, hd⟩ := hmember
  exact List.ne_nil_of_mem (mem_merged.2 ⟨c, hc, hd⟩)

theorem Reduces.eachGroup {k : Nat} (h : Reduces k cs d)
    (hgroup : (atLeast k cs).EachGroup (· ≤ ·)) :
    d.EachGroup (· ≤ ·) := by
  obtain ⟨hle, hmembers⟩ := eachGroup_atLeast.1 hgroup
  cases h with
  | counting _ _ => exact hgroup
  | single hsingle =>
      obtain ⟨-, rfl⟩ := Condition.atLeast.inj hsingle
      exact hmembers d (List.mem_singleton_self d)
  | collapsed every _ hmerged =>
      exact eachGroup_of_merged hmembers d (hmerged ▸ List.mem_singleton_self d)
  | common _ hcommon =>
      obtain ⟨_, _, name, _, common, -, -, -, hne, rfl⟩ := intersection?_eq_some hcommon
      exact eachGroup_oneOf hne
  | merged every hjoined _ _ =>
      rw [joined_eq, eachGroup_atLeast]
      refine ⟨?_, eachGroup_of_merged hmembers⟩
      cases every with
      | true => exact Nat.le_refl _
      | false =>
          obtain ⟨rfl, -⟩ := Condition.atLeast.inj hjoined
          have hne : cs ≠ [] := List.length_pos_iff.1 hle
          exact List.length_pos_iff.2 (merged_ne_nil hne hmembers)

/-- In what is simplified, too, no group asks for more members than it has. -/
theorem eachGroup_simplify (h : c.EachGroup (· ≤ ·)) :
    c.simplify.EachGroup (· ≤ ·) := by
  induction c using Condition.induction with
  | compare c => exact h
  | negation c ih =>
      have hsimple := ih h
      rcases simplify_negation_cases c with ⟨d, hc, hd⟩ | ⟨-, hc⟩
      · rw [hc] at hsimple
        rw [hd]
        exact hsimple
      · rw [hc]
        exact hsimple
  | atLeast k cs ih =>
      obtain ⟨hle, hmembers⟩ := eachGroup_atLeast.1 h
      rw [simplify_atLeast]
      refine (simplifyGroup_cases _ _).eachGroup (eachGroup_atLeast.2 ⟨?_, ?_⟩)
      · rwa [List.length_map]
      · rw [List.forall_mem_map]
        exact fun c hc => ih c hc (hmembers c hc)

/-! ## Rewriting again and again -/

/-- A way to rewrite a condition. -/
inductive Rewriting where
  | complement (range : ValueRange)
  | simplify

namespace Rewriting

/-- What is made of a condition. -/
def outcome : Rewriting → Condition → Condition
  | .complement range, c => c.complement range
  | .simplify, c => c.simplify

/-- What is made of a condition, unless a difference falls below zero. -/
def outcome? : Rewriting → Condition → Option Condition
  | .complement range, c => c.complement? range
  | .simplify, c => some c.simplify

variable {c : Condition}

theorem outcome?_of_eachGroup (r : Rewriting) (h : c.EachGroup (· ≤ ·)) :
    r.outcome? c = some (r.outcome c) := by
  cases r with
  | complement range => exact complement?_of_eachGroup h
  | simplify => rfl

theorem eachGroup_outcome (r : Rewriting) (h : c.EachGroup (· ≤ ·)) :
    (r.outcome c).EachGroup (· ≤ ·) := by
  cases r with
  | complement range => exact eachGroup_complement h
  | simplify => exact eachGroup_simplify h

/-- One rewriting after another: each finds the condition as it needs
it, and leaves it so. -/
theorem foldlM_outcome? (steps : List Rewriting) (h : c.EachGroup (· ≤ ·)) :
    steps.foldlM (fun d r => r.outcome? d) c =
      some (steps.foldl (fun d r => r.outcome d) c) ∧
      (steps.foldl (fun d r => r.outcome d) c).EachGroup (· ≤ ·) := by
  induction steps generalizing c with
  | nil => exact ⟨rfl, h⟩
  | cons r steps ih =>
      rw [List.foldlM_cons, List.foldl_cons, r.outcome?_of_eachGroup h]
      exact ih (r.eachGroup_outcome h)

end Rewriting

/-- If no group of a condition asks for more members than it has, then no difference
that is taken while it is rewritten falls below zero, and the check finds no fault in
the result, however often and by whichever ranges it is complemented and simplified. -/
theorem rewriting_keeps_thresholds (c : Condition) (hcheck : c.check = .ok ()) :
    (∀ range, c.complement? range = some (c.complement range) ∧
        (c.complement range).check = .ok ()) ∧
      c.simplify.check = .ok () ∧
      ∀ steps : List Rewriting,
        steps.foldlM (fun d r => r.outcome? d) c =
          some (steps.foldl (fun d r => r.outcome d) c) ∧
          (steps.foldl (fun d r => r.outcome d) c).check = .ok () := by
  have hgroups := check_eq_ok.1 hcheck
  refine ⟨fun range => ⟨complement?_of_eachGroup hgroups, ?_⟩, ?_, fun steps => ?_⟩
  · exact check_eq_ok.2 (eachGroup_complement hgroups)
  · exact check_eq_ok.2 (eachGroup_simplify hgroups)
  · obtain ⟨hdifferences, hrewritten⟩ := Rewriting.foldlM_outcome? steps hgroups
    exact ⟨hdifferences, check_eq_ok.2 hrewritten⟩

/-- One of two things: the light is red or green, and yellow or green; or two out of
three. -/
def slowDown : Condition :=
  .any
    [.all [.any [.equals "light" "red", .equals "light" "green"],
        .any [.equals "light" "yellow", .equals "light" "green"]],
      .atLeast 2 [.equals "barrier" "down", .compare ⟨"speed", "50", .gt⟩, .all []]]

/-- Members come and go on the way, and no difference falls below zero. -/
theorem slowDown_rewritten :
    slowDown.check = .ok () ∧
      [Rewriting.complement signals, .simplify, .complement signals, .simplify].foldlM
          (fun d r => r.outcome? d) slowDown = some
        (.any
          [.equals "light" "green",
            .atLeast 2 [.equals "barrier" "down", .compare ⟨"speed", "50", .gt⟩,
              .all []]]) := by
  have hcheck : slowDown.check = .ok () := by decide
  refine ⟨hcheck, ?_⟩
  rw [((rewriting_keeps_thresholds slowDown hcheck).2.2 _).1]
  decide

end Condition

end Consult
