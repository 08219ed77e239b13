import Consult.Format.Finding
import Consult.Chaining.Basic

/-!
# Consultations in JSON

A consultation that is put aside is written with all that it has recorded, so
that it can be read back and go on. The agenda is written with the goal pursued
last in front.
-/

namespace Consult

open Json (Reading readText readList readMap fields member)

/-! ## Writing -/

namespace Record

/-- The JSON form of a record. -/
def toJson (r : Record) : Json :=
  .object [member "value" (.text r.value), member "reason" r.reason.toJson]

end Record

namespace Pending

/-- The JSON form of a question that has been handed out. -/
def toJson (p : Pending) : Json :=
  .object [member "question" p.question.toJson, member "skippable" (.bool p.skippable)]

end Pending

namespace Consultation

/-- The JSON form of a consultation. -/
def toJson (s : Consultation) : Json :=
  .object [
    member "facts" (.object
      (s.facts.entries.map fun (fact, record) => member fact record.toJson)),
    member "rules" (.array (s.rules.map Rule.toJson)),
    member "questions" (.array (s.questions.map Question.toJson)),
    member "goal_stack" (.array (s.agenda.reverse.map Json.text))]

/-- The text of a consultation that is put aside. -/
def park (s : Consultation) : String := s.toJson.compact

end Consultation

/-! ## Reading -/

namespace Record

/-- Reads a record. -/
def read : (room : Nat) → Json → Reading Record
  | 0, _ => throw .malformed
  | room + 1, j => do
    let fs ← fields j
    let value := fs.field 0 "value" readText
    let reason := fs.field 1 "reason" (Reason.read false room)
    fs.check [value.fault, reason.fault]
    return ⟨← value.required fs, ← reason.required fs⟩

end Record

namespace Consultation

/-- Reads a consultation. -/
def read : (room : Nat) → Json → Reading Consultation
  | 0, _ => throw .malformed
  | room + 1, j => do
    let fs ← fields j
    let facts := fs.field 0 "facts" (readMap Record.read room)
    let rules := fs.field 1 "rules" (readList (Rule.read false) room)
    let questions := fs.field 2 "questions" (readList Question.read room)
    let agenda := fs.field 3 "goal_stack" (readList (fun _ => readText) room)
    fs.check [facts.fault, rules.fault, questions.fault, agenda.fault]
    return {
      facts := ← facts.required fs
      rules := ← rules.required fs
      questions := ← questions.required fs
      agenda := (← agenda.required fs).reverse }

/-- Reads a consultation that was put aside. -/
def resume (text : String) : Reading Consultation := Json.readDocument read text

end Consultation

end Consult
