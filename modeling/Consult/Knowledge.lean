import Consult.Condition.Basic
import Consult.KeyMap

/-!
# Knowledge bases

A knowledge base lists rules, questions that a user can answer, goals (the facts
to be determined) and facts that hold from the start. A consultation never
changes it.
-/

namespace Consult

/-- The values that facts take when a rule fires or an option is chosen. -/
abbrev Consequences := KeyMap String

namespace Consequences

/-- Consequences in words. -/
def text (cs : Consequences) : String :=
  ", ".intercalate (cs.entries.map fun (fact, value) => fact ++ " = " ++ value)

end Consequences

/-- When the condition holds, the consequences become facts. -/
structure Rule where
  description : String := ""
  condition : Condition
  consequences : Consequences
  /-- For presentation only. -/
  priority : Int32 := 0
  lineNumber : Option UInt64 := none
deriving DecidableEq

namespace Rule

/-- Whether the rule gives the fact a value. -/
def infers (r : Rule) (fact : String) : Bool := r.consequences.contains fact

theorem infers_iff {r : Rule} {fact : String} :
    r.infers fact = true ↔ ∃ value, r.consequences.get? fact = some value :=
  Option.isSome_iff_exists

/-- The facts that the rule gives a value. -/
def inferredFacts (r : Rule) : List String := r.consequences.keys

/-- A rule as it is referred to. -/
def text (r : Rule) : String :=
  "[Rule \"" ++ r.description ++ "\"" ++
    (match r.lineNumber with
      | some line => s!" (line {line})"
      | none => "") ++ "]"

end Rule

/-- One of the options that a question offers. -/
structure Choice where
  description : String
  consequences : Consequences
deriving DecidableEq

/-- A question that a user can be asked. -/
structure Question where
  description : String
  options : List Choice
  /-- For presentation only. -/
  priority : Int32 := 0
  lineNumber : Option UInt64 := none
deriving DecidableEq

namespace Question

/-- Whether some option gives the fact a value. -/
def infers (q : Question) (fact : String) : Bool :=
  q.options.any (·.consequences.contains fact)

/-- The facts that some option gives a value, in order of their first appearance. -/
def inferredFacts (q : Question) : List String :=
  (q.options.flatMap (·.consequences.keys)).eraseDups

end Question

/-- The text to present for a value of a goal; without a value, for all others. -/
structure Answer where
  value : Option String
  description : String
deriving DecidableEq

/-- A fact to be determined. -/
structure Goal where
  name : String
  description : String := ""
  answers : List Answer := []
deriving DecidableEq

/-- How the facts are found. -/
inductive Strategy where
  /-- From the goals to the facts that they depend on. -/
  | backward
  /-- From the facts to all that follows. -/
  | forward
deriving DecidableEq, Repr

/-- A knowledge base. -/
structure KnowledgeBase where
  title : String := ""
  description : Option String := none
  strategy : Strategy := .backward
  rules : List Rule := []
  questions : List Question := []
  goals : List Goal := []
  facts : Consequences := .empty
deriving DecidableEq

namespace KnowledgeBase

/-- Finds the first group in a rule that asks for more conditions than it has. -/
def check (kb : KnowledgeBase) : Except Fault Unit := kb.rules.forM (·.condition.check)

/-- The rules that give the fact a value. -/
def rulesInferring (kb : KnowledgeBase) (fact : String) : List Rule :=
  kb.rules.filter (·.infers fact)

end KnowledgeBase

end Consult
