import Consult.Json.Document
import Consult.Json.Flaw
import Consult.KeyMap

/-!
# Reading typed values from JSON

Each kind of value has a reader, which finds the first fault in written order.

* A *record* is an object with a member per field, in any order and with members
  of other names skipped, or an array with the fields in their order.
* A *choice* is an object whose only member is named for the variant, or just
  the name if the variant holds nothing.
* A *map* is an object; the last of several members of one name counts.

A reader may open so many containers inside one another only; it is given how
many as its `room`. Skipped values are not opened. A value is *settled* if it
was read as a whole before its type was known: then it is known to be well
formed, and a choice is refused for superfluous members before its name is
looked at.
-/

namespace Consult.Json

/-- Containers that may be open at once. -/
def maxDepth : Nat := 127

/-! ## Plain values -/

/-- Reads a text. -/
def readText : Json → Reading String
  | .string (some s) => return s
  | _ => throw .malformed

/-- Reads an integer from `lo` to `hi`. -/
def readInt (lo hi : Int) (j : Json) : Reading Int :=
  match j.toInt? with
  | some n => if lo ≤ n && n ≤ hi then return n else throw .malformed
  | none => throw .malformed

/-- Reads a natural number of 64 bits. -/
def readNat (j : Json) : Reading Nat := Int.toNat <$> readInt 0 (UInt64.size - 1) j

/-- Reads a value that may be `null`. -/
def readOptional {α : Type} (read : Json → Reading α) : Json → Reading (Option α)
  | .null => return none
  | j => some <$> read j

/-- Reads the items of an array, which is open already. -/
def readItems {α : Type} (read : Json → Reading α) : Json → Reading (List α)
  | .array items => items.mapM read
  | _ => throw .malformed

/-- Reads an array. -/
def readList {α : Type} (read : Nat → Json → Reading α) :
    (room : Nat) → Json → Reading (List α)
  | 0, _ => throw .malformed
  | room + 1, j => readItems (read room) j

/-- Reads a map of values that open no container. -/
def readMembers {α : Type} (read : Json → Reading α) (m : KeyMap α) :
    List (Option String × Json) → Reading (KeyMap α)
  | [] => return m
  | (none, _) :: _ => throw .malformed
  | (some key, value) :: members => do
    readMembers read (m.insert key (← read value)) members

/-- Reads a map. -/
def readMap {α : Type} (read : Nat → Json → Reading α) :
    (room : Nat) → Json → Reading (KeyMap α)
  | room + 1, .object members => readMembers (read room) .empty members
  | _, _ => throw .malformed

/-! ## Records -/

/-- The content of a record. -/
inductive Fields where
  | named (members : List (Option String × Json))
  | listed (items : List Json)

/-- The content of a record, which is open already. -/
def fields : Json → Reading Fields
  | .object members => return .named members
  | .array items => return .listed items
  | _ => throw .malformed

/-- A field of a record, read if it is there. -/
structure Field (α : Type) where
  name : String
  content : Option (Reading α)

/-- The value of the first member of that name. -/
def member? (name : String) : List (Option String × Json) → Option Json
  | [] => none
  | (key, value) :: members =>
      if key = some name then some value else member? name members

namespace Fields

/-- Reads the field that is called `name` or stands at place `index`. -/
def field {α : Type} (fs : Fields) (index : Nat) (name : String)
    (read : Json → Reading α) : Field α :=
  match fs with
  | .named members => ⟨name, (member? name members).map read⟩
  | .listed items => ⟨name, items[index]?.map read⟩

/-- What a record is faulted for if the field is not there. -/
def absence (fs : Fields) (name : String) : Flaw :=
  match fs with
  | .named _ => .missingField name
  | .listed _ => .malformed

end Fields

namespace Field

variable {α : Type}

/-- The fault of a field, under its name. -/
def fault (f : Field α) : String × Option Flaw :=
  (f.name, match f.content with
    | some (.error flaw) => some flaw
    | _ => none)

/-- The value of a field that has to be there. -/
def required (f : Field α) (fs : Fields) : Reading α :=
  f.content.getD (throw (fs.absence f.name))

/-- The value of a field, or the default if it is not there. -/
def withDefault (f : Field α) (default : α) : Reading α :=
  f.content.getD (return default)

end Field

/-- The first fault of the members of a record, given those of its fields and the
names of the fields seen before. -/
def checkMembers (faults : List (String × Option Flaw)) (seen : List String) :
    List (Option String × Json) → Reading Unit
  | [] => return ()
  | (none, _) :: _ => throw .malformed
  | (some key, value) :: members =>
    match faults.lookup key with
    | none =>
        if value.intact then checkMembers faults seen members else throw .malformed
    | some fault =>
      if key ∈ seen then throw (.duplicateField key)
      else match fault with
        | some flaw => throw flaw
        | none => checkMembers faults (key :: seen) members

/-- Finds the first fault of a record, given those of its fields in their order. -/
def Fields.check (fs : Fields) (faults : List (String × Option Flaw)) : Reading Unit :=
  match fs with
  | .named members => checkMembers faults [] members
  | .listed items =>
    match faults.findSome? (·.2) with
    | some flaw => throw flaw
    | none => if items.length ≤ faults.length then return () else throw .malformed

/-! ## Choices -/

/-- A variant that has been named, and what belongs to it. -/
structure Variant (κ : Type) where
  kind : κ
  /-- The content, if the variant is written as an object. -/
  content : Option Json
  /-- The fault of what follows the content, if any. -/
  ending : Reading Unit

/-- The variant of that name. -/
def choose {κ : Type} (variants : List (String × κ)) (name : String) : Reading κ :=
  match variants.lookup name with
  | some kind => return kind
  | none => throw (.unknownVariant name (variants.map (·.1)))

/-- Reads the name of a variant. -/
def readVariant {κ : Type} (variants : List (String × κ)) (settled : Bool)
    (room : Nat) :
    Json → Reading (Variant κ)
  | .string (some name) => do return ⟨← choose variants name, none, .ok ()⟩
  | .object ((key, content) :: others) =>
    if room = 0 || (settled && !others.isEmpty) then throw .malformed
    else match key with
      | none => throw .malformed
      | some name => do
        let kind ← choose variants name
        return ⟨kind, some content, if others.isEmpty then .ok ()
          else .error .malformed⟩
  | _ => throw .malformed

/-- Reads a choice between variants that hold nothing. -/
def readUnit {κ : Type} (variants : List (String × κ)) (settled : Bool) (room : Nat)
    (j : Json) :
    Reading κ := do
  let v ← readVariant variants settled room j
  match v.content with
  | none | some .null => v.ending
  | some (.object []) => if settled then v.ending else throw .malformed
  | some _ => throw .malformed
  return v.kind

/-- Reads a variant's content. -/
def Variant.read {κ α : Type} (v : Variant κ) (read : Json → Reading α) : Reading α :=
  match v.content with
  | none => throw .malformed
  | some content => do
    let a ← read content
    v.ending
    return a

/-! ## Settling a value -/

mutual

/-- Whether a value can be read as a whole with `room` containers open inside one
another: all of its strings are text and all of its numbers finite. -/
def canSettle : Json → (room : Nat) → Bool
  | .null, _ => true
  | .bool _, _ => true
  | .number spelling, _ => isFinite spelling
  | .string value, _ => value.isSome
  | .array items, room => room ≠ 0 && canSettleItems items (room - 1)
  | .object members, room => room ≠ 0 && canSettleMembers members (room - 1)
  | .broken, _ => false
termination_by structural j => j

/-- Whether all items can be read as a whole. -/
def canSettleItems : List Json → (room : Nat) → Bool
  | [], _ => true
  | item :: items, room => canSettle item room && canSettleItems items room
termination_by structural items => items

/-- Whether all members can be read as a whole. -/
def canSettleMembers : List (Option String × Json) → (room : Nat) → Bool
  | [], _ => true
  | (key, value) :: members, room =>
    key.isSome && canSettle value room && canSettleMembers members room
termination_by structural members => members

end

/-! ## Documents -/

/-- Reads a value from a text that holds it and nothing else. -/
def readDocument {α : Type} (read : (room : Nat) → Json → Reading α) (text : String) :
    Reading α := do
  let d := Document.parse text
  let a ← read maxDepth d.root
  if d.complete then return a else throw .malformed

end Consult.Json
