import Consult.Text.Mark

/-!
# Ligatures

Letters of several scripts that are written as one if they stand side by side,
some of them only with a joiner between them. A ligature takes one column.
-/

namespace Consult.Text

/-- The end of a ligature. -/
inductive Ligature where
  /-- Arabic alef, in front of which lam may stand. -/
  | alef
  /-- Hebrew lamed, to which alef may be joined. -/
  | lamed
  /-- Buginese ya, to which the vowel sign i may be joined. -/
  | ya
  /-- Buginese ya with the vowel sign i joined to it, in front of which a may stand. -/
  | vowelYa
  /-- A Tifinagh consonant, in front of which another one may stand. -/
  | consonant
  /-- A Tifinagh consonant behind the mark that joins it to another one. -/
  | joinedConsonant
  /-- One of the Lisu tone letters that stand second in a pair. -/
  | tone
  /-- The Old Turkic letter Orkhon i, to which ec may be joined. -/
  | orkhonI
  /-- A Khmer letter that is written below the one before it if coeng stands in
  front. -/
  | subscript
deriving DecidableEq, Repr

/-- Whether the character is an Arabic alef. -/
def isAlef (c : Char) : Bool :=
  inRanges c.toNat [(0x622, 0x623), (0x625, 0x625), (0x627, 0x627), (0x671, 0x673),
    (0x675, 0x675), (0x773, 0x774), (0x870, 0x882)]

/-- Whether the character is an Arabic lam. -/
def isLam (c : Char) : Bool :=
  inRanges c.toNat [(0x644, 0x644), (0x6B5, 0x6B8), (0x76A, 0x76A), (0x8A6, 0x8A6),
    (0x8C7, 0x8C7)]

/-- Whether the character is a Tifinagh consonant. -/
def isTifinaghConsonant (c : Char) : Bool :=
  inRanges c.toNat [(0x2D31, 0x2D65), (0x2D6F, 0x2D6F)]

/-- Whether the character is a Khmer letter that can be written below another one. -/
def isSubscript (c : Char) : Bool :=
  inRanges c.toNat [(0x1780, 0x1782), (0x1784, 0x1787), (0x1789, 0x178C),
    (0x178E, 0x1793), (0x1795, 0x1798), (0x179B, 0x179D), (0x17A0, 0x17A0),
    (0x17A2, 0x17A2), (0x17A7, 0x17A7), (0x17AB, 0x17AC), (0x17AF, 0x17AF)]

namespace Ligature

/-- The ligature that the character may be the last letter of. -/
def ofLast? (c : Char) : Option Ligature :=
  if isAlef c then some alef
  else if c = '\u05dc' then some lamed
  else if c = '\u1a10' then some ya
  else if isTifinaghConsonant c then some consonant
  else if c = '\ua4fc' || c = '\ua4fd' then some tone
  else if c.toNat = 0x10C03 then some orkhonI
  else if isSubscript c then some subscript
  else none

/-- Whether marks that do not show may stand between the letters, a joiner among them.
In Arabic letters join across more marks, but not across a joiner. -/
def isTransparent (l : Ligature) : Bool := l ≠ alef

/-- Puts a character in front of the end of a ligature, with a joiner between them
if `joined`. The number is what the columns of the text change by; no ligature is
left if it is complete. -/
def extend? (c : Char) (joined : Bool) : Ligature → Option (Int × Option Ligature)
  | alef =>
    if isLam c then some (0, none)
    else if isJoiningMark c then some (0, some alef) else none
  | lamed => if joined && c = '\u05d0' then some (0, none) else none
  | ya => if joined && c = '\u1a17' then some (0, some vowelYa) else none
  | vowelYa => if c = '\u1a15' then some (0, none) else none
  | consonant =>
    if c = '\u2d7f' then some (1, some joinedConsonant)
    else if joined && isTifinaghConsonant c then some (0, none)
    else none
  | joinedConsonant => if isTifinaghConsonant c then some (-1, none) else none
  | tone => if 0xA4F8 ≤ c.toNat && c.toNat ≤ 0xA4FB then some (0, none) else none
  | orkhonI => if joined && c.toNat = 0x10C32 then some (0, none) else none
  | subscript => if c = '\u17d2' then some (-1, none) else none

end Ligature

/-! ## Compound vowel signs -/

/-- The end of a compound vowel sign of Kirat Rai. Its parts have to stand side by
side. -/
inductive VowelSign where
  /-- The sign e. -/
  | e
  /-- The sign ai, or e twice. -/
  | ai
deriving DecidableEq, Repr

namespace VowelSign

/-- The compound that the character may be the last part of. -/
def ofLast? (c : Char) : Option VowelSign :=
  if c.toNat = 0x16D67 then some e else if c.toNat = 0x16D68 then some ai else none

/-- Puts a character in front of the end of a compound. The number is what the columns
of the text change by; no compound is left if it is complete. -/
def extend? (c : Char) : VowelSign → Option (Int × Option VowelSign)
  | e =>
    if c.toNat = 0x16D63 || c.toNat = 0x16D69 then some (0, none)
    else if c.toNat = 0x16D67 then some (0, some ai)
    else if c.toNat = 0x16D68 then some (1, some e)
    else none
  | ai => if c.toNat = 0x16D63 then some (0, none) else none

end VowelSign

end Consult.Text
