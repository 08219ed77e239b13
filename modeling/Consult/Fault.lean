import Consult.Json.Flaw

/-!
# Faults

None of these is raised when a goal cannot be decided; every one of them means
that a knowledge base is broken or that a caller is mistaken.
-/

namespace Consult

/-- Why an operation cannot be carried out. -/
inductive Fault where
  /-- A chain of variables comes back to itself. -/
  | circular (chain : List String)
  /-- No relation has that name. -/
  | unknownRelation (token : String)
  /-- A group asks for more conditions than it has. -/
  | excessiveThreshold (threshold conditions : Nat)
  /-- A variable stands where the name of a fact is wanted. -/
  | variableAsName (name : String)
  /-- A goal that was settled has no value. -/
  | unsolvedGoal (goal : String)
  /-- A call took more rounds than allowed. -/
  | stepLimit (limit : Nat)
  /-- More goals than allowed would be pursued at once. -/
  | agendaLimit (limit : Nat) (goal : String)
  /-- The question has no option of that number. -/
  | noSuchOption (index options : Nat)
  /-- A document cannot be read. -/
  | unreadable (flaw : Json.Flaw)
deriving DecidableEq, Repr

namespace Fault

/-- What is wrong, in words. -/
def message : Fault → String
  | circular chain => "Cyclic indirection: " ++ " -> ".intercalate chain
  | unknownRelation token =>
      s!"Unknown test '{token}' (expected one of eq, gt, gte, lt, lte)"
  | excessiveThreshold threshold conditions =>
    s!"Threshold {threshold} exceeds the number of conditions ({conditions})"
  | variableAsName name =>
      s!"Expected a fact name, got variable '{name}'; resolve it first"
  | unsolvedGoal goal => s!"Goal '{goal}' was marked as solved but has no value"
  | stepLimit limit => s!"Solver exceeded {limit} steps"
  | agendaLimit limit goal =>
      s!"Goal stack exceeded {limit} entries while pursuing '{goal}'"
  | noSuchOption index options =>
    s!"Option {index} is out of range for a question with {options} options"
  | unreadable flaw =>
    match flaw.detail? with
    | some detail => "Invalid knowledge domain: " ++ detail
    | none => "Invalid knowledge domain"

end Fault

end Consult
