/-!
# JSON values

A JSON value as a tree. Numbers keep their spelling, since whether a number is
an integer is a matter of how it is written.

A text that is not JSON still has a tree: all that was read before the first
fault, with `broken` in the place where reading stopped. A reader of such a tree
meets the parts of the text in their order and so finds the first fault, be it
one of form or one of content. For the same reason a string with an unpaired
surrogate, which is well formed but denotes no text, is kept as `string none`.
-/

namespace Consult

/-- A JSON value, as far as it could be read. -/
inductive Json where
  | null
  | bool (value : Bool)
  /-- A number with its spelling. -/
  | number (spelling : String)
  /-- A string; `none` if its escapes denote no text. -/
  | string (value : Option String)
  | array (items : List Json)
  /-- An object with its members in written order, repeated names included. -/
  | object (members : List (Option String × Json))
  /-- The place where reading stopped. -/
  | broken
deriving Inhabited

namespace Json

/-- The JSON string for a text. -/
def text (s : String) : Json := .string (some s)

/-- A member of an object. -/
def member (name : String) (value : Json) : Option String × Json := (some name, value)

/-! ## Well-formed values -/

mutual

/-- Whether reading got through the whole value. -/
def intact : Json → Bool
  | .array items => intactItems items
  | .object members => intactMembers members
  | .broken => false
  | _ => true
termination_by structural j => j

/-- Whether every item was read. -/
def intactItems : List Json → Bool
  | [] => true
  | item :: items => item.intact && intactItems items
termination_by structural items => items

/-- Whether every member was read. -/
def intactMembers : List (Option String × Json) → Bool
  | [] => true
  | (_, value) :: members => value.intact && intactMembers members
termination_by structural members => members

end

end Json

end Consult
