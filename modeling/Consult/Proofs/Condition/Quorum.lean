import Consult.Proofs.Condition.Complement
import Mathlib.Data.List.Sublists

/-!
# Quorums

That at least `k` of some conditions hold means that there are `k` of them, a quorum,
which all hold.  With three verdicts this is a disjunction, over all quorums, of the
conjunction of the verdicts in each, whereas the verdict on a group comes from two
counts: of the members that hold, and of those that may.

Both sides follow the list in the same way.  A quorum of `k + 1` either does without
the first member, or else consists of it and of a quorum of `k` from the others; the
verdict that is counted obeys the same equation, `Verdict.atLeast_succ_cons`.  No
bound on `k` is needed for it: the empty quorum always holds, and of more members than
there are no quorum can be formed.

## Main results

* `Verdict.atLeast_eq_disjunction` — the verdict that is counted is the one on the
  quorums.
* `Condition.group_holds_by_quorum` — what this says of a group of conditions.
-/

namespace Consult

namespace Verdict

/-! ## Conjunctions and disjunctions -/

/-- The verdict on the conjunction of these. -/
def conjunction (vs : List Verdict) : Verdict := vs.foldr both yes

/-- The verdict on the disjunction of these. -/
def disjunction (vs : List Verdict) : Verdict := vs.foldr either no

@[simp] theorem conjunction_nil : conjunction [] = yes := rfl

@[simp] theorem conjunction_cons (v : Verdict) (vs : List Verdict) :
    conjunction (v :: vs) = both v (conjunction vs) := rfl

@[simp] theorem disjunction_nil : disjunction [] = no := rfl

@[simp] theorem disjunction_cons (v : Verdict) (vs : List Verdict) :
    disjunction (v :: vs) = either v (disjunction vs) := rfl

theorem disjunction_append (vs ws : List Verdict) :
    disjunction (vs ++ ws) = either (disjunction vs) (disjunction ws) := by
  induction vs with
  | nil => rfl
  | cons v vs ih =>
      rw [List.cons_append, disjunction_cons, disjunction_cons, ih]
      exact (combine_assoc false v (disjunction vs) (disjunction ws)).symm

theorem both_either (u v w : Verdict) :
    both u (either v w) = either (both u v) (both u w) := by
  cases u <;> cases v <;> cases w <;> rfl

/-- What every part of a disjunction needs may be stated once. -/
theorem disjunction_map_both (v : Verdict) (ws : List Verdict) :
    disjunction (ws.map (both v)) = both v (disjunction ws) := by
  induction ws with
  | nil => cases v <;> rfl
  | cons w ws ih =>
      rw [List.map_cons, disjunction_cons, disjunction_cons, ih, both_either]

/-! ## Counting and choosing -/

/-- None are needed: the empty quorum will do. -/
theorem atLeast_zero (vs : List Verdict) : atLeast 0 vs = yes := by
  rw [atLeast, ofCounts, if_pos (Nat.zero_le _)]

/-- So many hold without the first one, or one fewer of the others and the first one. -/
theorem atLeast_succ_cons (k : Nat) (v : Verdict) (vs : List Verdict) :
    atLeast (k + 1) (v :: vs) =
      either (atLeast (k + 1) vs) (both v (atLeast k vs)) := by
  simp only [atLeast, ofCounts, List.count_cons]
  cases v <;> simp <;> split_ifs <;> first | rfl | omega

/-- At least `k` hold if there is a quorum of `k` in which all hold. -/
theorem atLeast_eq_disjunction {α : Type} (v : α → Verdict) (k : Nat) (as : List α) :
    atLeast k (as.map v) =
      disjunction
        ((as.sublistsLen k).map fun quorum => conjunction (quorum.map v)) := by
  induction as generalizing k with
  | nil => cases k <;> rfl
  | cons a as ih =>
      cases k with
      | zero => rw [atLeast_zero, List.sublistsLen_zero, List.map_singleton,
          List.map_nil, conjunction_nil, disjunction_cons, either]
      | succ k =>
          -- The quorums with `a` are those of one fewer among the
          -- others, each with `a` added.
          have hwith : ((as.sublistsLen k).map (a :: ·)).map
              (fun quorum => conjunction (quorum.map v)) =
                ((as.sublistsLen k).map fun quorum => conjunction (quorum.map v)).map
                  (both (v a)) := by
            simp
          rw [List.map_cons, atLeast_succ_cons, ih, ih, List.sublistsLen_succ_cons,
            List.map_append, disjunction_append, hwith, disjunction_map_both]

/-- The order of the parts does not count. -/
theorem atLeast_perm (k : Nat) {vs ws : List Verdict} (h : vs.Perm ws) :
    atLeast k vs = atLeast k ws := by
  rw [atLeast, atLeast, h.count_eq, h.count_eq]

/-- There is one quorum of all. -/
theorem atLeast_length (vs : List Verdict) : atLeast vs.length vs = conjunction vs := by
  induction vs with
  | nil => rfl
  | cons v vs ih =>
      rw [conjunction_cons, ← ih]
      exact atLeast_cons true v vs

theorem atLeast_one (vs : List Verdict) : atLeast 1 vs = disjunction vs := by
  induction vs with
  | nil => rfl
  | cons v vs ih =>
      rw [disjunction_cons, ← ih]
      exact atLeast_cons false v vs

end Verdict

/-! ## Groups of conditions -/

namespace Condition

variable {facts : Facts}

theorem finds_iff_judge {v : Verdict} {c : Condition} :
    c.Finds facts v ↔ c.judge facts = .ok v := by
  unfold Finds judge
  cases c.evaluate facts <;> simp [Except.map]

/-- Members with verdicts are counted. -/
theorem finds_atLeast (k : Nat) {cs : List Condition} {v : Condition → Verdict}
    (hv : ∀ c ∈ cs, c.Finds facts (v c)) :
    (atLeast k cs).Finds facts (.atLeast k (cs.map v)) := by
  have hjudge : cs.map (judge facts) = (cs.map v).map .ok := by
    rw [List.map_map]
    exact List.map_congr_left fun c hc => finds_iff_judge.1 (hv c hc)
  rw [finds_iff_judge, judge_atLeast, hjudge, Judgement.atLeast_map_ok]

/-- If all of `cs` have verdicts, then the one on "at least `k` of `cs`" is that on the
disjunction, over all quorums of `k`, of the conjunction of the verdicts in the quorum.
The groups that need all or one are conjunction and disjunction, and the order in which
the members are listed does not count. -/
theorem group_holds_by_quorum (facts : Facts) (cs : List Condition)
    (v : Condition → Verdict) (hv : ∀ c ∈ cs, c.Finds facts (v c)) :
    (∀ k, (atLeast k cs).Finds facts
        (.disjunction ((cs.sublistsLen k).map fun quorum =>
          .conjunction (quorum.map v)))) ∧
      (all cs).Finds facts (.conjunction (cs.map v)) ∧
      (any cs).Finds facts (.disjunction (cs.map v)) ∧
      ∀ cs', cs'.Perm cs → ∀ k w,
        (atLeast k cs').Finds facts w ↔ (atLeast k cs).Finds facts w := by
  have hcounted (k : Nat) := finds_atLeast k hv
  refine ⟨?quorums, ?all, ?any, ?reordered⟩
  case quorums =>
    intro k
    rw [← Verdict.atLeast_eq_disjunction]
    exact hcounted k
  case all =>
    rw [← Verdict.atLeast_length, List.length_map]
    exact hcounted cs.length
  case any =>
    rw [← Verdict.atLeast_one]
    exact hcounted 1
  case reordered =>
    intro cs' hperm k w
    have hcounted' := finds_atLeast k fun c hc => hv c (hperm.mem_iff.1 hc)
    rw [finds_iff_judge] at hcounted' ⊢
    rw [finds_iff_judge, hcounted', finds_iff_judge.1 (hcounted k),
      Verdict.atLeast_perm k (hperm.map v)]

/-- The light, the speed and the barrier that a train needs to pass. -/
def allClear : List Condition :=
  [.equals "light" "green", .compare ⟨"speed", "50", .lt⟩, .equals "barrier" "down"]

/-- The verdicts on them while the barrier is up and nobody knows the speed. -/
def allClearVerdict (c : Condition) : Verdict :=
  if c = .equals "light" "green" then .yes
  else if c = .equals "barrier" "down" then .no
  else .maybe

theorem allClear_by_quorum :
    (∀ c ∈ allClear, c.Finds passFacts (allClearVerdict c)) ∧
      (atLeast 0 allClear).Finds passFacts .yes ∧
      (atLeast 2 allClear).Finds passFacts .maybe ∧
      (atLeast 4 allClear).Finds passFacts .no ∧
      (all allClear).Finds passFacts .no ∧
      (any allClear).Finds passFacts .yes ∧
      (atLeast 2 allClear.reverse).Finds passFacts .maybe := by
  have hverdicts : ∀ c ∈ allClear, c.Finds passFacts (allClearVerdict c) := by decide
  obtain ⟨hquorums, hall, hany, hreordered⟩ :=
    group_holds_by_quorum passFacts allClear allClearVerdict hverdicts
  have hreverse := hreordered allClear.reverse allClear.reverse_perm 2 .maybe
  exact ⟨hverdicts, hquorums 0, hquorums 2, hquorums 4, hall, hany,
    hreverse.2 (hquorums 2)⟩

end Condition

end Consult
