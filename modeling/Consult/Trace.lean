import Consult.Consultation
import Consult.Text.Quoted

/-!
# The trace of a consultation

Every step of chaining leaves an event. Events have no influence on what is
done; they are shown to whoever wants to follow a consultation.
-/

namespace Consult

/-- How noteworthy an event is. -/
inductive Severity where
  | debug
  | info
  | warning
deriving DecidableEq, Repr

/-- A step of chaining. -/
inductive Event where
  /-- A rule was considered for a goal. -/
  | considered (rule : Rule) (finding : Finding)
  /-- No rule can decide a fact any more; so many questions can. -/
  | rulesExhausted (fact : String) (rules questions : Nat)
  /-- A question is asked to decide a fact. -/
  | asking (question fact : String)
  /-- A question is asked to decide a fact, and there are others. -/
  | askingOneOf (question fact : String)
  | skipped (question : String) (skippable : Bool)
  /-- A goal has a value and leaves the agenda. -/
  | solved (goal value : String)
  /-- A goal waits for facts. -/
  | waiting (goal : String) (facts : List String)
  /-- A fact is pursued to decide a goal. -/
  | pursuing (fact goal : String)
  /-- A fact that nothing can determine is assumed undefined. -/
  | assumingUndefined (fact : String)
  /-- A fact that was to be assumed undefined has a value. -/
  | alreadyDefined (conflict : Conflict)
  /-- A goal leaves the agenda without a value. -/
  | dropped (goal : String)
  | fired (rule : Rule) (finding : Finding)
  | ruledOut (rule : Rule) (finding : Finding)
  /-- A rule that fired contradicts a recorded fact. -/
  | contradicted (rule : Rule) (conflict : Conflict)
  /-- No rule can fire any more; so many are undecided. -/
  | saturated (undecided : Nat)
deriving DecidableEq

namespace Event

/-- How noteworthy the event is. -/
def severity : Event → Severity
  | asking .. | askingOneOf .. | assumingUndefined .. => .info
  | skipped _ skippable => if skippable then .info else .warning
  | alreadyDefined .. | dropped .. | contradicted .. => .warning
  | _ => .debug

/-- The event in words. -/
def message : Event → String
  | considered rule finding => rule.text ++ " evaluates to " ++ finding.text
  | rulesExhausted fact rules questions =>
    s!"'{fact}': {rules} rule(s) ruled out, {questions} question(s) available"
  | asking question fact => s!"Asking '{question}' to decide '{fact}'"
  | askingOneOf question fact => s!"Asking '{question}' to decide '{fact}' (skippable)"
  | skipped question _ => s!"Skipped '{question}'"
  | solved goal value => s!"Solved '{goal}' = '{value}', popped from goal stack"
  | waiting goal facts =>
      s!"'{goal}' is undecided, waiting on " ++ Text.quotedList facts
  | pursuing fact goal => s!"Pushed '{fact}' on goal stack to decide '{goal}'"
  | assumingUndefined fact =>
    s!"No rule or question left to decide '{fact}', assuming it is undefined"
  | alreadyDefined conflict =>
    s!"Could not mark '{conflict.fact}' undefined, it is already '{conflict.existing}'"
  | dropped goal =>
      s!"Dropped '{goal}' from goal stack, its variable cannot be resolved"
  | fired rule finding => rule.text ++ " fires: " ++ finding.text
  | ruledOut rule finding => rule.text ++ " ruled out: " ++ finding.text
  | contradicted rule conflict =>
    rule.text ++
      s!" concludes '{conflict.fact}' = '{conflict.rejected}', but it is already " ++
      s!"'{conflict.existing}'; keeping the recorded value"
  | saturated undecided => s!"Fixpoint reached with {undecided} undecided rule(s)"

end Event

end Consult
