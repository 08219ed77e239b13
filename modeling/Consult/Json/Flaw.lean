/-!
# Why a document cannot be read

The first fault of a document, in reading order. Only faults in the use of the
data model are told apart; all others make the document malformed.
-/

namespace Consult.Json

/-- The first fault of a document. -/
inductive Flaw where
  /-- The text is not JSON, is nested too deeply, or holds a value of the wrong kind. -/
  | malformed
  | missingField (name : String)
  | duplicateField (name : String)
  | unknownVariant (name : String) (expected : List String)
  /-- A group asks for more conditions than it has. -/
  | excessiveThreshold (threshold conditions : Nat)
deriving DecidableEq, Repr

/-- The result of reading a value. -/
abbrev Reading (α : Type) := Except Flaw α

/-- A name between backticks. -/
def ticked (name : String) : String := "`" ++ name ++ "`"

/-- The names that are expected, as a phrase. -/
def expectation : List String → String
  | [a, b] => "expected " ++ ticked a ++ " or " ++ ticked b
  | names => "expected one of " ++ ", ".intercalate (names.map ticked)

/-- What is wrong, in words, unless the document is just malformed. -/
def Flaw.detail? : Flaw → Option String
  | .malformed => none
  | .missingField name => some ("missing field " ++ ticked name)
  | .duplicateField name => some ("duplicate field " ++ ticked name)
  | .unknownVariant name expected =>
    some ("unknown variant " ++ ticked name ++ ", " ++ expectation expected)
  | .excessiveThreshold threshold conditions =>
    some s!"Threshold {threshold} exceeds the number of conditions ({conditions})"

end Consult.Json
