import Consult.Json.Number
import Consult.Json.Quoted

/-!
# JSON tokens

The tokens of a JSON text, in order. The scan of a text that is not JSON ends
with `junk` at the first character that begins no token.
-/

namespace Consult.Json

/-- A lexical unit of JSON; literals, numbers and strings are scalar values already. -/
inductive Token where
  | openArray
  | closeArray
  | openObject
  | closeObject
  | comma
  | colon
  | scalar (value : Json)
  | junk

/-- The four characters that may stand between tokens. -/
def isSpace (c : Char) : Bool := c = ' ' || c = '\t' || c = '\n' || c = '\r'

/-- The token that begins with `c`, where `cs` follows, and how many characters
of `cs` belong to it. -/
def tokenAt (c : Char) (cs : List Char) : Token × Nat :=
  if c = '[' then (.openArray, 0)
  else if c = ']' then (.closeArray, 0)
  else if c = '\x7b' then (.openObject, 0)
  else if c = '\x7d' then (.closeObject, 0)
  else if c = ',' then (.comma, 0)
  else if c = ':' then (.colon, 0)
  else if c = '\x22' then
    match body? cs with
    | some (codes, n) => (.scalar (.string (decodeText? codes)), n)
    | none => (.junk, 0)
  else if c = 'n' && cs.take 3 = ['u', 'l', 'l'] then (.scalar .null, 3)
  else if c = 't' && cs.take 3 = ['r', 'u', 'e'] then (.scalar (.bool true), 3)
  else if c = 'f' && cs.take 4 = ['a', 'l', 's', 'e'] then (.scalar (.bool false), 4)
  else
    let spelling := c :: cs.takeWhile isNumberChar
    if (spelling? spelling).isSome then (.scalar (.number (.ofList spelling)),
      spelling.length - 1)
    else (.junk, 0)

/-- The tokens of a text of which the first `skip` characters belong to
a token already taken. -/
def tokensAfter : (skip : Nat) → List Char → List Token
  | _, [] => []
  | skip + 1, _ :: cs => tokensAfter skip cs
  | 0, c :: cs =>
    if isSpace c then tokensAfter 0 cs
    else match tokenAt c cs with
      | (.junk, _) => [.junk]
      | (token, n) => token :: tokensAfter n cs

/-- The tokens of a text. -/
def tokens (cs : List Char) : List Token := tokensAfter 0 cs

theorem tokensAfter_eq_drop (skip : Nat) (cs : List Char) :
    tokensAfter skip cs = tokens (cs.drop skip) := by
  induction cs generalizing skip with
  | nil => cases skip <;> rfl
  | cons c cs ih =>
    cases skip with
    | zero => rfl
    | succ skip => exact ih skip

end Consult.Json
