import Consult.Text.Visible

/-!
# Quoted text

Texts are shown in double quotes, with a backslash before quotes and
backslashes, short escapes for the common controls, and the code point in
hexadecimal for every other character without a visible form of its own.
-/

namespace Consult.Text

/-- The escape of a character that has one of its own. -/
def shortEscape? (c : Char) : Option Char :=
  if c = '\x00' then some '0'
  else if c = '\t' then some 't'
  else if c = '\r' then some 'r'
  else if c = '\n' then some 'n'
  else if c = '\\' || c = '\x22' then some c
  else none

/-- A character as it stands between quotes. -/
def quotedChar (c : Char) : List Char :=
  match shortEscape? c with
  | some e => ['\\', e]
  | none =>
    if isVisible c then [c]
    else ['\\', 'u', '\x7b'] ++ Nat.toDigits 16 c.toNat ++ ['\x7d']

/-- A text in quotes. -/
def quoted (s : String) : String :=
  .ofList ('\x22' :: (s.toList.flatMap quotedChar ++ ['\x22']))

/-- A list of texts, each in quotes, in brackets. -/
def quotedList (texts : List String) : String :=
  "[" ++ ", ".intercalate (texts.map quoted) ++ "]"

end Consult.Text
