import Consult.Condition.Basic
import Consult.Json.Printer
import Consult.Json.Reading

/-!
# Conditions in JSON

A comparison is a record; a group is spelled `all` or `any` if it needs all or
one of its members, and otherwise `some` with its threshold. Reading accepts any
spelling and refuses a `some` that asks for more conditions than it has.
-/

namespace Consult

open Json (Reading readText readNat readItems readUnit readVariant fields member)

/-! ## Writing -/

namespace Relation

/-- The JSON form of a relation. -/
def toJson (r : Relation) : Json := .text r.name

end Relation

namespace Comparison

/-- The JSON form of a comparison. -/
def toJson (c : Comparison) : Json :=
  .object [member "name" (.text c.name), member "value" (.text c.value),
    member "test" c.relation.toJson]

end Comparison

namespace Condition

mutual

/-- The JSON form of a condition. -/
def toJson : Condition → Json
  | .compare c => .object [member "fact" c.toJson]
  | .negation c => .object [member "not" c.toJson]
  | .atLeast k cs =>
    let items := Json.array (toJsonList cs)
    if k = cs.length then .object [member "all" items]
    else if k = 1 then .object [member "any" items]
    else .object [member "some"
      (.object [member "threshold" (.ofNat k), member "conditions" items])]
termination_by structural c => c

/-- The JSON forms of the conditions of a list. -/
def toJsonList : List Condition → List Json
  | [] => []
  | c :: cs => c.toJson :: toJsonList cs
termination_by structural cs => cs

end

theorem toJsonList_eq (cs : List Condition) : toJsonList cs = cs.map toJson := by
  induction cs with
  | nil => rfl
  | cons c cs ih => simp [toJsonList, ih]

end Condition

/-! ## Reading -/

namespace Relation

/-- Reads a relation. -/
def read (settled : Bool) (room : Nat) (j : Json) : Reading Relation :=
  readUnit names settled room j

end Relation

namespace Comparison

/-- Reads a comparison. -/
def read (settled : Bool) : (room : Nat) → Json → Reading Comparison
  | 0, _ => throw .malformed
  | room + 1, j => do
    let fs ← fields j
    let name := fs.field 0 "name" readText
    let value := fs.field 1 "value" readText
    let relation := fs.field 2 "test" (Relation.read settled room)
    fs.check [name.fault, value.fault, relation.fault]
    return ⟨← name.required fs, ← value.required fs, ← relation.withDefault .eq⟩

end Comparison

namespace Condition

/-- How a condition is spelled. -/
inductive Spelling where
  | fact
  | not
  | all
  | any
  | some
deriving DecidableEq, Repr

/-- The spellings with their names. -/
def Spelling.names : List (String × Spelling) :=
  [("fact", fact), ("not", not), ("all", all), ("any", any), ("some", some)]

/-- Reads a condition. -/
def read (settled : Bool) : (room : Nat) → Json → Reading Condition
  | 0, j => do
    let _ ← readVariant Spelling.names settled 0 j
    throw .malformed
  | room + 1, j => do
    /- Reads the members of a group with so much room left. -/
    let members : Json → Reading (List Condition) :=
      match room with
      | 0 => fun _ => throw .malformed
      | room + 1 => readItems (read settled room)
    let v ← readVariant Spelling.names settled (room + 1) j
    match v.kind with
    | .fact => compare <$> v.read (Comparison.read settled room)
    | .not => negation <$> v.read (read settled room)
    | .all => all <$> v.read members
    | .any => any <$> v.read members
    | .some =>
      let (k, cs) ← v.read fun content =>
        match room with
        | 0 => throw .malformed
        | room + 1 => do
          let fs ← fields content
          let threshold := fs.field 0 "threshold" readNat
          let conditions := fs.field 1 "conditions" (match room with
            | 0 => fun _ => throw .malformed
            | room + 1 => readItems (read settled room))
          fs.check [threshold.fault, conditions.fault]
          return (← threshold.required fs, ← conditions.required fs)
      if k ≤ cs.length then return atLeast k cs
      else throw (.excessiveThreshold k cs.length)

end Condition

end Consult
