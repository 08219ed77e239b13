/-!
# Decimal numbers in text

Reading and writing natural numbers and signed integers in decimal. Values are
exact, whatever the number of digits; a caller that wants a range tests it
afterwards.
-/

namespace Consult.Text

/-- The ten decimal digits. -/
def isDigit (c : Char) : Bool := '0' ≤ c && c ≤ '9'

/-- The number that a digit stands for. -/
def digitValue (c : Char) : Nat := c.toNat - '0'.toNat

/-- The value of a run of digits that follows a number already read. -/
def digitsValue (read : Nat) (cs : List Char) : Nat :=
  cs.foldl (fun n c => 10 * n + digitValue c) read

/-- Reads a natural number: one digit or more and nothing else. -/
def readNat? (cs : List Char) : Option Nat :=
  if !cs.isEmpty && cs.all isDigit then some (digitsValue 0 cs) else none

/-- Reads an integer: an optional sign, then a natural number. -/
def readInt? : List Char → Option Int
  | '+' :: cs => (readNat? cs).map Int.ofNat
  | '-' :: cs => (readNat? cs).map fun n => -(n : Int)
  | cs => (readNat? cs).map Int.ofNat

/-- Writes a natural number without leading zeros. -/
def writeNat (n : Nat) : String := toString n

/-- Writes an integer, with a minus sign in front if it is negative. -/
def writeInt (n : Int) : String :=
  match n with
  | .ofNat n => writeNat n
  | .negSucc n => "-" ++ writeNat (n + 1)

end Consult.Text
