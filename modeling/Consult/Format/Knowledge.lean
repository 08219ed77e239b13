import Consult.Format.Condition
import Consult.Knowledge

/-!
# Knowledge bases in JSON

Rules, questions, goals and knowledge bases are records, consequences are maps.
Every field is written, except for a line number or a description that is not
there. Reading a knowledge base also checks the thresholds in its rules.
-/

namespace Consult

open Json (Reading readText readInt readNat readOptional readList readMap readUnit
  fields member)

/-! ## Writing -/

/-- The JSON form of a text that may be missing. -/
def optionalText : Option String → Json
  | some s => .text s
  | none => .null

/-- A member that is left out if there is no value. -/
def optionalMember (name : String) : Option Json → List (Option String × Json)
  | some j => [member name j]
  | none => []

namespace Consequences

/-- The JSON form of consequences. -/
def toJson (cs : Consequences) : Json :=
  .object (cs.entries.map fun (fact, value) => member fact (.text value))

end Consequences

namespace Rule

/-- The JSON form of a rule. -/
def toJson (r : Rule) : Json :=
  .object
    ([member "description" (.text r.description), member "condition" r.condition.toJson,
      member "consequences" r.consequences.toJson,
      member "priority" (.ofInt r.priority.toInt)] ++
      optionalMember "line_number" (r.lineNumber.map fun n => .ofNat n.toNat))

end Rule

namespace Choice

/-- The JSON form of an option. -/
def toJson (c : Choice) : Json :=
  .object [member "description" (.text c.description),
    member "consequences" c.consequences.toJson]

end Choice

namespace Question

/-- The JSON form of a question. -/
def toJson (q : Question) : Json :=
  .object ([member "description" (.text q.description),
    member "options" (.array (q.options.map Choice.toJson)),
    member "priority" (.ofInt q.priority.toInt)] ++
      optionalMember "line_number" (q.lineNumber.map fun n => .ofNat n.toNat))

end Question

namespace Answer

/-- The JSON form of an answer. -/
def toJson (a : Answer) : Json :=
  .object [member "value" (optionalText a.value),
    member "description" (.text a.description)]

end Answer

namespace Goal

/-- The JSON form of a goal. -/
def toJson (g : Goal) : Json :=
  .object [member "name" (.text g.name), member "description" (.text g.description),
    member "answers" (.array (g.answers.map Answer.toJson))]

end Goal

namespace Strategy

/-- The strategies with their names. -/
def names : List (String × Strategy) :=
  [("backward-chaining", backward), ("forward-chaining", forward)]

/-- The JSON form of a strategy. -/
def toJson : Strategy → Json
  | backward => .text "backward-chaining"
  | forward => .text "forward-chaining"

end Strategy

namespace KnowledgeBase

/-- The JSON form of a knowledge base. -/
def toJson (kb : KnowledgeBase) : Json :=
  .object ([member "title" (.text kb.title)] ++
    optionalMember "description" (kb.description.map Json.text) ++
    [member "algorithm" kb.strategy.toJson,
      member "rules" (.array (kb.rules.map Rule.toJson)),
      member "questions" (.array (kb.questions.map Question.toJson)),
      member "goals" (.array (kb.goals.map Goal.toJson)),
      member "facts" kb.facts.toJson])

end KnowledgeBase

/-! ## Reading -/

/-- Reads a priority. -/
def readPriority (j : Json) : Reading Int32 :=
  Int32.ofInt <$> readInt Int32.minValue.toInt Int32.maxValue.toInt j

/-- Reads a line number. -/
def readLineNumber (j : Json) : Reading UInt64 := UInt64.ofNat <$> readNat j

namespace Consequences

/-- Reads consequences. -/
def read (room : Nat) (j : Json) : Reading Consequences :=
  readMap (fun _ => readText) room j

end Consequences

namespace Rule

/-- Reads a rule. -/
def read (settled : Bool) : (room : Nat) → Json → Reading Rule
  | 0, _ => throw .malformed
  | room + 1, j => do
    let fs ← fields j
    let description := fs.field 0 "description" readText
    let condition := fs.field 1 "condition" (Condition.read settled room)
    let consequences := fs.field 2 "consequences" (Consequences.read room)
    let priority := fs.field 3 "priority" readPriority
    let lineNumber := fs.field 4 "line_number" (readOptional readLineNumber)
    fs.check [description.fault, condition.fault, consequences.fault, priority.fault,
      lineNumber.fault]
    return {
      description := ← description.withDefault ""
      condition := ← condition.required fs
      consequences := ← consequences.required fs
      priority := ← priority.withDefault 0
      lineNumber := ← lineNumber.withDefault none }

end Rule

namespace Choice

/-- Reads an option. -/
def read : (room : Nat) → Json → Reading Choice
  | 0, _ => throw .malformed
  | room + 1, j => do
    let fs ← fields j
    let description := fs.field 0 "description" readText
    let consequences := fs.field 1 "consequences" (Consequences.read room)
    fs.check [description.fault, consequences.fault]
    return ⟨← description.required fs, ← consequences.required fs⟩

end Choice

namespace Question

/-- Reads a question. -/
def read : (room : Nat) → Json → Reading Question
  | 0, _ => throw .malformed
  | room + 1, j => do
    let fs ← fields j
    let description := fs.field 0 "description" readText
    let options := fs.field 1 "options" (readList Choice.read room)
    let priority := fs.field 2 "priority" readPriority
    let lineNumber := fs.field 3 "line_number" (readOptional readLineNumber)
    fs.check [description.fault, options.fault, priority.fault, lineNumber.fault]
    return {
      description := ← description.required fs
      options := ← options.required fs
      priority := ← priority.withDefault 0
      lineNumber := ← lineNumber.withDefault none }

end Question

namespace Answer

/-- Reads an answer. -/
def read : (room : Nat) → Json → Reading Answer
  | 0, _ => throw .malformed
  | _ + 1, j => do
    let fs ← fields j
    let value := fs.field 0 "value" (readOptional readText)
    let description := fs.field 1 "description" readText
    fs.check [value.fault, description.fault]
    return ⟨← value.withDefault none, ← description.required fs⟩

end Answer

namespace Goal

/-- Reads a goal. -/
def read : (room : Nat) → Json → Reading Goal
  | 0, _ => throw .malformed
  | room + 1, j => do
    let fs ← fields j
    let name := fs.field 0 "name" readText
    let description := fs.field 1 "description" readText
    let answers := fs.field 2 "answers" (readList Answer.read room)
    fs.check [name.fault, description.fault, answers.fault]
    return ⟨← name.required fs, ← description.withDefault "", ← answers.withDefault []⟩

end Goal

namespace KnowledgeBase

/-- Reads a knowledge base, as far as the form of the document goes. -/
def read : (room : Nat) → Json → Reading KnowledgeBase
  | 0, _ => throw .malformed
  | room + 1, j => do
    let fs ← fields j
    let title := fs.field 0 "title" readText
    let description := fs.field 1 "description" (readOptional readText)
    let strategy := fs.field 2 "algorithm" (readUnit Strategy.names false room)
    let rules := fs.field 3 "rules" (readList (Rule.read false) room)
    let questions := fs.field 4 "questions" (readList Question.read room)
    let goals := fs.field 5 "goals" (readList Goal.read room)
    let facts := fs.field 6 "facts" (Consequences.read room)
    fs.check [title.fault, description.fault, strategy.fault, rules.fault,
      questions.fault, goals.fault, facts.fault]
    return {
      title := ← title.withDefault ""
      description := ← description.withDefault none
      strategy := ← strategy.withDefault .backward
      rules := ← rules.withDefault []
      questions := ← questions.withDefault []
      goals := ← goals.withDefault []
      facts := ← facts.withDefault .empty }

/-- Reads a checked knowledge base from a text. -/
def parse (text : String) : Except Fault KnowledgeBase :=
  match Json.readDocument read text with
  | .error flaw => throw (.unreadable flaw)
  | .ok kb => do
    kb.check
    return kb

end KnowledgeBase

end Consult
