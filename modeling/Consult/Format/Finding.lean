import Consult.Format.Knowledge
import Consult.Finding

/-!
# Findings in JSON

A reason is an object whose member `type` says which kind of reason it is; the
other members are its fields. Since `type` may come last, a reason is read as a
whole before its fields are, and all that is inside it is settled then. An array
that starts with the type is a reason as well.
-/

namespace Consult

open Json (Reading readText readItems readUnit readVariant fields member choose
  canSettle Fields Flaw)

/-! ## Writing -/

namespace Verdict

/-- The verdicts with their names. -/
def names : List (String × Verdict) := [("Yes", yes), ("No", no), ("Maybe", maybe)]

/-- The JSON form of a verdict. -/
def toJson (v : Verdict) : Json := .text v.name

end Verdict

mutual

/-- The JSON form of a reason. -/
def Reason.toJson : Reason → Json
  | .answered q c =>
    .object [member "type" (.text "answered_question"), member "question" q.toJson,
      member "choice" c.toJson]
  | .inferred r f =>
    .object [member "type" (.text "inferred_rule"), member "rule" r.toJson,
      member "truth" f.toJson]
  | .given explanation =>
    .object [member "type" (.text "predefined_constant"),
      member "explanation" (.text explanation)]
termination_by structural r => r

/-- The JSON form of a finding. -/
def Finding.toJson : Finding → Json
  | .because v gs =>
    .object [member "value" v.toJson, member "factors" (.array (Ground.toJsonList gs))]
termination_by structural f => f

/-- The JSON form of a ground. -/
def Ground.toJson : Ground → Json
  | .unknown fact => .object [member "fact" (.text fact)]
  | .finding f => .object [member "state" f.toJson]
  | .cause r => .object [member "cause" r.toJson]
termination_by structural g => g

/-- The JSON forms of the grounds of a list. -/
def Ground.toJsonList : List Ground → List Json
  | [] => []
  | g :: gs => g.toJson :: Ground.toJsonList gs
termination_by structural gs => gs

end

/-! ## Reading -/

namespace Ground

/-- The kinds of grounds. -/
inductive Kind where
  | unknown
  | finding
  | cause
deriving DecidableEq, Repr

/-- The kinds of grounds with their names. -/
def Kind.names : List (String × Kind) :=
  [("fact", unknown), ("state", finding), ("cause", cause)]

end Ground

namespace Reason

/-- The kinds of reasons. -/
inductive Kind where
  | answered
  | inferred
  | given
deriving DecidableEq, Repr

/-- The kinds of reasons with their names. -/
def Kind.names : List (String × Kind) :=
  [("answered_question", answered), ("inferred_rule", inferred),
    ("predefined_constant", given)]

/-- Reads the type of a reason. A settled one may also be given by its
place among the kinds. -/
def readKind (settled : Bool) (j : Json) : Reading Kind :=
  match j with
  | .string (some name) => choose Kind.names name
  | j =>
    match j.toInt? with
    | some n =>
      if settled && 0 ≤ n then
        match Kind.names[n.toNat]? with
        | some (_, kind) => return kind
        | none => throw .malformed
      else throw .malformed
    | none => throw .malformed

/-- Reads the members of a reason as a whole and finds its type. -/
def findKind (settled : Bool) (room : Nat) (found : Option Kind) :
    List (Option String × Json) → Reading Kind
  | [] =>
    match found with
    | some kind => return kind
    | none => throw (.missingField "type")
  | (none, _) :: _ => throw .malformed
  | (some key, value) :: members =>
    if key = "type" then
      match found with
      | some _ => throw (.duplicateField "type")
      | none => do findKind settled room (some (← readKind settled value)) members
    else if settled || canSettle value room then findKind settled room found members
    else throw .malformed

/-- Reads a reason, which is open already, as a whole: its type and its fields. -/
def open? (settled : Bool) (room : Nat) : Json → Reading (Kind × Fields)
  | .object members => do return (← findKind settled room none members, .named members)
  | .array [] => throw (.missingField "type")
  | .array (first :: items) => do
    let kind ← readKind settled first
    if settled || items.all (canSettle · room) then return (kind, .listed items)
    else throw .malformed
  | _ => throw .malformed

end Reason

mutual

/-- Reads a reason. -/
def Reason.read (settled : Bool) : (room : Nat) → Json → Reading Reason
  | 0, _ => throw .malformed
  | room + 1, j => do
    let (kind, fs) ← Reason.open? settled room j
    match kind with
    | .answered =>
      let question := fs.field 0 "question" (Question.read room)
      let choice := fs.field 1 "choice" (Choice.read room)
      fs.check [question.fault, choice.fault]
      return .answered (← question.required fs) (← choice.required fs)
    | .inferred =>
      let rule := fs.field 0 "rule" (Rule.read true room)
      let finding := fs.field 1 "truth" (Finding.read true room)
      fs.check [rule.fault, finding.fault]
      return .inferred (← rule.required fs) (← finding.required fs)
    | .given =>
      let explanation := fs.field 0 "explanation" readText
      fs.check [explanation.fault]
      return .given (← explanation.required fs)
termination_by structural room => room

/-- Reads a finding. -/
def Finding.read (settled : Bool) : (room : Nat) → Json → Reading Finding
  | 0, _ => throw .malformed
  | room + 1, j => do
    let fs ← fields j
    let verdict := fs.field 0 "value" (readUnit Verdict.names settled room)
    let grounds := fs.field 1 "factors" (match room with
      | 0 => fun _ => throw .malformed
      | room + 1 => readItems (Ground.read settled room))
    fs.check [verdict.fault, grounds.fault]
    return .because (← verdict.required fs) (← grounds.required fs)
termination_by structural room => room

/-- Reads a ground. -/
def Ground.read (settled : Bool) : (room : Nat) → Json → Reading Ground
  | 0, j => do
    let _ ← readVariant Ground.Kind.names settled 0 j
    throw .malformed
  | room + 1, j => do
    let v ← readVariant Ground.Kind.names settled (room + 1) j
    match v.kind with
    | .unknown => .unknown <$> v.read readText
    | .finding => .finding <$> v.read (Finding.read settled room)
    | .cause => .cause <$> v.read (Reason.read settled room)
termination_by structural room => room

end

namespace Finding

/-- Reads a finding from a text. -/
def parse (text : String) : Reading Finding :=
  Json.readDocument (Finding.read false) text

end Finding

end Consult
