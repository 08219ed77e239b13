import Consult.Facts

/-!
# Evaluating conditions

The finding on a condition depends on nothing but the recorded facts. It fails
only if a chain of variables that the condition leads to is circular.

## Main results

* `evaluateAll_eq_mapM` — the members of a group are evaluated from left to right.
-/

namespace Consult

/-- The finding on a comparison. Name, recorded value and expected value are followed
to literals in this order, and the first that cannot be followed leaves the
comparison undecided. -/
def Comparison.evaluate (c : Comparison) (facts : Facts) : Except Fault Finding := do
  match ← facts.resolve c.name with
  | .unknown fact => return .missing fact
  | .literal name =>
    match facts.get? name with
    | none => return .missing name
    | some record =>
      match ← facts.resolve record.value with
      | .unknown fact => return .missing fact
      | .literal actual =>
        match ← facts.resolve c.value with
        | .unknown fact => return .missing fact
        | .literal expected =>
          let verdict := if c.relation.holds actual expected then Verdict.yes else .no
          return .because verdict [.cause record.reason]

namespace Condition

mutual

/-- The finding on a condition. -/
def evaluate (facts : Facts) : Condition → Except Fault Finding
  | .compare c => c.evaluate facts
  | .negation c => do return (← c.evaluate facts).negate
  | .atLeast k cs => do return .ofGroup k (← evaluateAll facts cs)
termination_by structural c => c

/-- The findings on the conditions of a list. -/
def evaluateAll (facts : Facts) : List Condition → Except Fault (List Finding)
  | [] => return []
  | c :: cs => do
    let f ← c.evaluate facts
    let fs ← evaluateAll facts cs
    return f :: fs
termination_by structural cs => cs

end

/-- The members of a group are evaluated from left to right. -/
theorem evaluateAll_eq_mapM (facts : Facts) (cs : List Condition) :
    evaluateAll facts cs = cs.mapM (evaluate facts) := by
  induction cs with
  | nil => rfl
  | cons c cs ih => rw [evaluateAll, ih, List.mapM_cons]

end Condition

end Consult
