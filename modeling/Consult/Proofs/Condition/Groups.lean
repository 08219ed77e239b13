import Consult.Condition.Basic

/-!
# The groups in a condition

What is asked of every group in a condition, by its threshold and the number of
its members.

## Main results

* `Condition.eachGroup_atLeast` — what holds of all groups holds of
  one and of those inside it.
* `Condition.check_eq_ok` — what the check of a condition says about its groups.
-/

namespace Consult.Condition

mutual

/-- The groups in a condition: the threshold of each, and of how many members. -/
def groups : Condition → List (Nat × Nat)
  | .compare _ => []
  | .negation c => c.groups
  | .atLeast k cs => (k, cs.length) :: groupsList cs
termination_by structural c => c

/-- The groups in a list of conditions. -/
def groupsList : List Condition → List (Nat × Nat)
  | [] => []
  | c :: cs => c.groups ++ groupsList cs
termination_by structural cs => cs

end

theorem groupsList_eq (cs : List Condition) : groupsList cs = cs.flatMap groups := by
  induction cs with
  | nil => rfl
  | cons c cs ih => simp [groupsList, ih]

@[simp] theorem groups_compare (k : Comparison) : (compare k).groups = [] := rfl

@[simp] theorem groups_atLeast (k : Nat) (cs : List Condition) :
    (atLeast k cs).groups = (k, cs.length) :: cs.flatMap groups := by
  rw [groups, groupsList_eq]

/-- All groups in a condition are of that kind, given the threshold and
the number of members. -/
def EachGroup (P : Nat → Nat → Prop) (c : Condition) : Prop := ∀ g ∈ c.groups, P g.1 g.2

section EachGroup

variable {P Q : Nat → Nat → Prop}

@[simp] theorem eachGroup_compare (k : Comparison) : (compare k).EachGroup P := by
  simp [EachGroup]

@[simp] theorem eachGroup_negation {c : Condition} :
    (negation c).EachGroup P ↔ c.EachGroup P :=
  Iff.rfl

@[simp] theorem eachGroup_atLeast {k : Nat} {cs : List Condition} :
    (atLeast k cs).EachGroup P ↔ P k cs.length ∧ ∀ c ∈ cs, c.EachGroup P := by
  simp only [EachGroup, groups_atLeast, List.forall_mem_cons, List.mem_flatMap]
  exact and_congr_right fun _ =>
    ⟨fun h c hc g hg => h g ⟨c, hc, hg⟩, fun h g ⟨c, hc, hg⟩ => h c hc g hg⟩

theorem EachGroup.imp {c : Condition} (h : c.EachGroup P) (hPQ : ∀ k n, P k n → Q k n) :
    c.EachGroup Q :=
  fun g hg => hPQ g.1 g.2 (h g hg)

end EachGroup

/-- The check of a condition says of each group that it does not ask
for more than it has. -/
theorem check_eq_ok {c : Condition} : c.check = .ok () ↔ c.EachGroup (· ≤ ·) := by
  induction c using Condition.induction with
  | compare k => simp [check, pure, Except.pure]
  | negation c ih => rw [check, ih, eachGroup_negation]
  | atLeast k cs ih =>
      have hlist : checkList cs = .ok () ↔ ∀ c ∈ cs, c.EachGroup (· ≤ ·) := by
        induction cs with
        | nil => simp [checkList, pure, Except.pure]
        | cons c cs ihs =>
            have ihs := ihs fun d hd => ih d (List.mem_cons_of_mem _ hd)
            rw [List.forall_mem_cons, ← ih c List.mem_cons_self, ← ihs, checkList]
            cases c.check with
            | error fault => simp [bind, Except.bind]
            | ok u => simp [bind, Except.bind]
      rw [check, eachGroup_atLeast, ← hlist]
      by_cases hk : k ≤ cs.length
      · simp [hk]
      · simp [hk, throw, throwThe, MonadExceptOf.throw]

end Consult.Condition
