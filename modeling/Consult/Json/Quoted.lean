/-!
# JSON strings

Writing escapes the quote, the backslash and the controls below the space, and
nothing else. Reading goes in two stages: `body?` finds where a string ends and
which 16-bit or larger codes it lists, and `decode?` makes characters of the
codes, joining surrogate pairs. A string may pass the first stage and fail the
second.
-/

namespace Consult.Json

/-! ## Writing -/

/-- The letter that stands for a control character after a backslash. -/
def controlLetter? (c : Char) : Option Char :=
  if c = '\x08' then some 'b'
  else if c = '\t' then some 't'
  else if c = '\n' then some 'n'
  else if c = '\x0c' then some 'f'
  else if c = '\r' then some 'r'
  else none

/-- The lower-case hexadecimal digit of a value below 16. -/
def hexDigit (n : Nat) : Char := Nat.digitChar n

/-- A character as it is written between quotes. -/
def escapeChar (c : Char) : List Char :=
  if c = '\x22' || c = '\\' then ['\\', c]
  else match controlLetter? c with
    | some e => ['\\', e]
    | none =>
      if c.toNat < 0x20 then ['\\', 'u', '0', '0', hexDigit (c.toNat / 16),
        hexDigit (c.toNat % 16)]
      else [c]

/-- The characters of a text as they are written between quotes. -/
def escape (cs : List Char) : List Char := cs.flatMap escapeChar

/-! ## Reading -/

/-- The value of a hexadecimal digit of either case. -/
def hexValue? (c : Char) : Option Nat :=
  if '0' ≤ c && c ≤ '9' then some (c.toNat - '0'.toNat)
  else if 'a' ≤ c && c ≤ 'f' then some (c.toNat - 'a'.toNat + 10)
  else if 'A' ≤ c && c ≤ 'F' then some (c.toNat - 'A'.toNat + 10)
  else none

/-- The code that four hexadecimal digits name. -/
def hexCode? (a b c d : Char) : Option Nat := do
  return 4096 * (← hexValue? a) + 256 * (← hexValue? b) + 16 * (← hexValue? c) +
    (← hexValue? d)

/-- The code of the character that a single letter stands for after a backslash. -/
def letterCode? (c : Char) : Option Nat :=
  if c = '\x22' || c = '\\' || c = '/' then some c.toNat
  else if c = 'b' then some 8
  else if c = 't' then some 9
  else if c = 'n' then some 10
  else if c = 'f' then some 12
  else if c = 'r' then some 13
  else none

/-- Reads a string up to its closing quote, the opening one being read already: the
codes that it lists and the number of characters read, the closing quote included. -/
def body? : List Char → Option (List Nat × Nat)
  | [] => none
  | '\\' :: 'u' :: a :: b :: c :: d :: cs => do
    let code ← hexCode? a b c d
    let (codes, n) ← body? cs
    return (code :: codes, n + 6)
  | '\\' :: e :: cs => do
    let code ← letterCode? e
    let (codes, n) ← body? cs
    return (code :: codes, n + 2)
  | c :: cs =>
    if c = '\x22' then some ([], 1)
    else if c = '\\' || c.toNat < 0x20 then none
    else do
      let (codes, n) ← body? cs
      return (c.toNat :: codes, n + 1)

/-- The first half of a surrogate pair. -/
def isHighSurrogate (code : Nat) : Bool := 0xD800 ≤ code && code < 0xDC00

/-- The second half of a surrogate pair. -/
def isLowSurrogate (code : Nat) : Bool := 0xDC00 ≤ code && code < 0xE000

/-- The characters that the codes denote, a surrogate pair being one character. An
unpaired surrogate denotes nothing. -/
def decode? : List Nat → Option (List Char)
  | [] => some []
  | [code] =>
    if isHighSurrogate code || isLowSurrogate code then none else some [Char.ofNat code]
  | code :: next :: codes =>
    if isHighSurrogate code then
      if isLowSurrogate next then do
        return Char.ofNat (0x10000 + 1024 * (code - 0xD800) + (next - 0xDC00)) ::
          (← decode? codes)
      else none
    else if isLowSurrogate code then none
    else do
      return Char.ofNat code :: (← decode? (next :: codes))

/-- The text that the codes denote. -/
def decodeText? (codes : List Nat) : Option String := (decode? codes).map String.ofList

end Consult.Json
