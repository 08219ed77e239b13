import Consult.Json.Number
import Consult.Json.Quoted

/-!
# Writing JSON

The compact form of a JSON value: no space between tokens, members in their
order, strings with the fewest escapes.
-/

namespace Consult.Json

/-- A string in quotes, in front of `rest`. -/
def printText (s : String) (rest : List Char) : List Char :=
  '\x22' :: (escape s.toList ++ '\x22' :: rest)

mutual

/-- The compact form of a value, in front of `rest`. What could not be read has no
form. -/
def printOnto : Json → List Char → List Char
  | .null, rest => 'n' :: 'u' :: 'l' :: 'l' :: rest
  | .bool true, rest => 't' :: 'r' :: 'u' :: 'e' :: rest
  | .bool false, rest => 'f' :: 'a' :: 'l' :: 's' :: 'e' :: rest
  | .number spelling, rest => spelling.toList ++ rest
  | .string value, rest => printText (value.getD "") rest
  | .array items, rest => '[' :: printItems true items (']' :: rest)
  | .object members, rest => '\x7b' :: printMembers true members ('\x7d' :: rest)
  | .broken, rest => rest
termination_by structural j => j

/-- The items with commas between them, and one in front unless they come first. -/
def printItems (first : Bool) : List Json → List Char → List Char
  | [], rest => rest
  | item :: items, rest =>
    let tail := printOnto item (printItems false items rest)
    if first then tail else ',' :: tail
termination_by structural items => items

/-- The members with commas between them, and one in front unless they come first. -/
def printMembers (first : Bool) : List (Option String × Json) → List Char → List Char
  | [], rest => rest
  | (key, value) :: members, rest =>
    let tail :=
      printText (key.getD "") (':' :: printOnto value (printMembers false members rest))
    if first then tail else ',' :: tail
termination_by structural members => members

end

/-- The compact text of a value. -/
def compact (j : Json) : String := .ofList (j.printOnto [])

end Consult.Json
