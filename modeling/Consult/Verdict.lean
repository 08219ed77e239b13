/-!
# Verdicts

What is known about a condition: that it holds, that it does not, or neither.
The verdict on "at least `k` of these" follows from how many hold and how many
still may.
-/

namespace Consult

/-- A three-valued verdict. -/
inductive Verdict where
  | yes
  | no
  | maybe
deriving DecidableEq, Repr

namespace Verdict

/-- The verdict on the opposite. -/
def flip : Verdict → Verdict
  | yes => no
  | no => yes
  | maybe => maybe

@[simp] theorem flip_flip (v : Verdict) : v.flip.flip = v := by cases v <;> rfl

/-- The word for a verdict. -/
def name : Verdict → String
  | yes => "Yes"
  | no => "No"
  | maybe => "Maybe"

/-- The verdict on "at least `k` hold", if `yes` of them hold and `maybe` of them
may. -/
def ofCounts (k yes maybe : Nat) : Verdict :=
  if k ≤ yes then .yes else if k ≤ yes + maybe then .maybe else .no

/-- The verdict on "at least `k` of these hold". -/
def atLeast (k : Nat) (vs : List Verdict) : Verdict :=
  ofCounts k (vs.count yes) (vs.count maybe)

end Verdict

end Consult
