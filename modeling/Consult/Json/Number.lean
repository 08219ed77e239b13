import Consult.Json.Basic
import Consult.Text.Decimal

/-!
# JSON numbers

The spelling of a number, the integers that a spelling stands for, and which
numbers a binary64 reader can take in. A fraction or an exponent makes a number
no integer, whatever its value, and neither is `-0`.
-/

namespace Consult.Json

open Consult.Text (isDigit readNat? digitsValue digitValue writeNat writeInt)

/-! ## Spelling -/

/-- Characters that may stand in a number. -/
def isNumberChar (c : Char) : Bool :=
  isDigit c || c = '-' || c = '+' || c = '.' || c = 'e' || c = 'E'

/-- A number taken apart: its digits before and after the point, and its exponent. -/
structure Spelling where
  negative : Bool
  whole : List Char
  fraction : List Char
  exponent : Int
  /-- Whether a point or an exponent is written. -/
  marked : Bool

/-- Reads an optional exponent, which ends the number. -/
def exponent? : List Char → Option (Option Int)
  | [] => some none
  | e :: cs =>
    if e = 'e' || e = 'E' then
      match cs with
      | '+' :: digits => (readNat? digits).map fun n => some n
      | '-' :: digits => (readNat? digits).map fun n => some (-(n : Int))
      | digits => (readNat? digits).map fun n => some n
    else none

/-- Takes a number apart, or finds that it is none: no leading zeros, and a digit at
least before the point, after it and in the exponent. -/
def spelling? (cs : List Char) : Option Spelling :=
  let negative := cs.head? = some '-'
  let cs := if negative then cs.tail else cs
  let whole := cs.takeWhile isDigit
  let rest := cs.dropWhile isDigit
  if whole.isEmpty || (whole.head? = some '0' && whole.length ≠ 1) then none
  else match rest with
    | '.' :: cs =>
      let fraction := cs.takeWhile isDigit
      if fraction.isEmpty then none
      else (exponent? (cs.dropWhile isDigit)).map fun e =>
        ⟨negative, whole, fraction, e.getD 0, true⟩
    | cs => (exponent? cs).map fun e => ⟨negative, whole, [], e.getD 0, e.isSome⟩

/-! ## Integers -/

/-- The integer that a number stands for, if it is written as one. -/
def toInt? : Json → Option Int
  | .number spelling =>
    match spelling? spelling.toList with
    | some s =>
      let n := digitsValue 0 s.whole
      if s.marked || (s.negative && n = 0) then none
      else some (if s.negative then -(n : Int) else n)
    | none => none
  | _ => none

/-- The JSON number for a natural number. -/
def ofNat (n : Nat) : Json := .number (writeNat n)

/-- The JSON number for an integer. -/
def ofInt (n : Int) : Json := .number (writeInt n)

/-! ## Numbers in binary64 -/

/-- The integer nearest to `n` with at most 53 significant bits; a tie
goes to the even one. -/
def round53 (n : Nat) : Nat :=
  if n.log2 < 53 then n
  else
    let unit := Nat.pow 2 (n.log2 - 52)
    let q := n / unit
    let r := n % unit
    (if 2 * r > unit || (2 * r = unit && q % 2 = 1) then q + 1 else q) * unit

/-- Takes up digits behind a number for as long as it stays below
2^64; what is left over. -/
def takeUp (n : Nat) : List Char → Nat × List Char
  | [] => (n, [])
  | c :: cs => if 10 * n + digitValue c < UInt64.size then takeUp
      (10 * n + digitValue c) cs else (n, c :: cs)

/-- The least number that is rounded to infinity: half a unit beyond
the largest finite one. -/
def overflow : Nat := Nat.pow 2 1024 - Nat.pow 2 970

/-- Whether a number can be taken in as a binary64 value. Its first digits, as many
as stay below 2^64, are rounded and multiplied by the rounded power of ten; the
product must not overflow. -/
def Spelling.isFinite (s : Spelling) : Bool :=
  let (n, dropped) := takeUp 0 s.whole
  let (n, unused) := takeUp n s.fraction
  let e := s.exponent + dropped.length - (s.fraction.length - unused.length)
  n = 0 || e < 0 || (e ≤ 308 && round53 n * round53 (Nat.pow 10 e.toNat) < overflow)

/-- Whether `spelling` is a number that can be taken in as a binary64 value. -/
def isFinite (spelling : String) : Bool :=
  match spelling? spelling.toList with
  | some s => s.isFinite
  | none => false

end Consult.Json
