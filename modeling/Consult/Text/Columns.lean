import Consult.Text.Emoji
import Consult.Text.Ligature

/-!
# Display columns

The width of a text on a display with cells of one size. A character takes one
column, two if it is wide or a picture, and none if it is a mark. Some sequences
are shown as one: ligatures, and emoji that are modified, joined or turned from
text into pictures by a selector behind them.

What a character takes depends on what stands behind it, so the columns are
added up from the end of the text.

## Main results

* `lineColumns_of_printable` — printable ASCII takes a column for each character.
-/

namespace Consult.Text

/-- Code points that take two columns, the pictures and skin tones left out. -/
def wideRanges : List (Nat × Nat) :=
  [(0x1100, 0x115F), (0x2329, 0x232A), (0x2630, 0x2637), (0x268A, 0x268F),
   (0x2E80, 0x2E99), (0x2E9B, 0x2EF3), (0x2F00, 0x2FD5), (0x2FF0, 0x3029),
   (0x3030, 0x303E), (0x3041, 0x3096), (0x309B, 0x30FF), (0x3105, 0x312F),
   (0x3131, 0x3163), (0x3165, 0x318E), (0x3190, 0x31E5), (0x31EF, 0x321E),
   (0x3220, 0x3247), (0x3250, 0xA48C), (0xA490, 0xA4C6), (0xA960, 0xA97C),
   (0xAC00, 0xD7A3), (0xF900, 0xFAFF), (0xFE10, 0xFE19), (0xFE30, 0xFE52),
   (0xFE54, 0xFE66), (0xFE68, 0xFE6B), (0xFF01, 0xFF60), (0xFFE0, 0xFFE6),
   (0x16FE0, 0x16FE3), (0x16FF2, 0x16FF6), (0x17000, 0x18CDA), (0x18CFF, 0x18D20),
   (0x18D80, 0x18DF2), (0x18E00, 0x19191), (0x191A0, 0x191D2), (0x1AFF0, 0x1AFF3),
   (0x1AFF5, 0x1AFFB), (0x1AFFD, 0x1AFFE), (0x1B000, 0x1B128), (0x1B132, 0x1B132),
   (0x1B150, 0x1B152), (0x1B155, 0x1B155), (0x1B164, 0x1B168), (0x1B170, 0x1B2FB),
   (0x1D300, 0x1D356), (0x1D360, 0x1D376), (0x1F1AE, 0x1F1AE), (0x1F200, 0x1F200),
   (0x1F202, 0x1F202), (0x1F210, 0x1F219), (0x1F21B, 0x1F22E), (0x1F230, 0x1F231),
   (0x1F237, 0x1F237), (0x1F23B, 0x1F23B), (0x1F240, 0x1F248), (0x1F260, 0x1F265),
   (0x1F7DA, 0x1F7DA), (0x20000, 0x2FFFD), (0x30000, 0x3FFFD)]

/-- Columns that a character takes on its own. -/
def charColumns (c : Char) : Nat :=
  if isMark c then 0
  else if c.toNat = 0x17D8 then 3
  else if isPicture c || isSkinTone c || c.toNat =
    0x17A4 || inRanges c.toNat wideRanges then 2
  else 1

/-! ## What stands behind a character -/

/-- The part of the text behind a character that the character may combine with. -/
inductive Tail where
  /-- Nothing to combine with. -/
  | nothing
  /-- A line feed, to which a carriage return belongs. -/
  | lineFeed
  /-- The rest of a sequence of emoji. -/
  | emoji (e : EmojiTail)
  /-- The end of a ligature, with a joiner in front of it if `joined`. -/
  | ligature (l : Ligature) (joined : Bool)
  /-- The end of a compound vowel sign. -/
  | vowel (v : VowelSign)
deriving DecidableEq, Repr

/-- A character that determines how the one in front of it is shown. -/
inductive Selector where
  /-- As plain text. -/
  | text
  /-- As a picture. -/
  | picture
  /-- As a quotation mark of two columns. -/
  | wideQuote
deriving DecidableEq, Repr

/-- The selector that a character is. -/
def Selector.ofChar? (c : Char) : Option Selector :=
  if c = '\ufe0e' then some text
  else if c = '\ufe0f' then some picture
  else if c = '\ufe01' then some wideQuote
  else none

/-- What stands behind a character. -/
structure Behind where
  /-- The selectors right behind it. -/
  selectors : List Selector := []
  /-- What it may combine with, behind the selectors if there are any. -/
  tail : Tail := .nothing
deriving DecidableEq, Repr

namespace Tail

/-- The tail of a text that a character begins which combines with nothing behind it. -/
def ofChar (c : Char) : Tail :=
  if isSkinTone c then .emoji .skinTone
  else if isRegionalIndicator c then .emoji .indicator
  else if isPicture c then .emoji .emoji
  else match Ligature.ofLast? c, VowelSign.ofLast? c with
    | some l, _ => .ligature l false
    | none, some v => .vowel v
    | none, none => .nothing

/-- Puts a character in front of a tail that it combines with. The number is what the
columns of the text change by. -/
def extend? (c : Char) : Tail → Option (Int × Tail)
  | nothing | lineFeed => none
  | emoji e => (e.extend? c).map fun (n, e) => (n, emoji e)
  | ligature l joined =>
    if l.isTransparent && c = joiner then some (0, ligature l true)
    else if l.isTransparent && isInvisibleMark c then some (0, ligature l joined)
    else (l.extend? c joined).map fun (n, l) => (n, l.elim nothing (ligature · false))
  | vowel v => (v.extend? c).map fun (n, v) => (n, v.elim nothing vowel)

end Tail

/-! ## Columns of a text -/

/-- Whether the character is a quotation mark that can take two columns. -/
def isQuotationMark (c : Char) : Bool :=
  c = '\u2018' || c = '\u2019' || c = '\u201c' || c = '\u201d'

namespace Behind

/-- Puts a selector in front of a text. Ligatures stand selectors between their
letters; emoji that are joined to others stand the one for pictures. -/
def select (s : Selector) (b : Behind) : Behind :=
  match b.tail with
  | .ligature .. => ⟨s :: b.selectors, b.tail⟩
  | .emoji (.joined .bare) | .emoji (.joined .keycap) =>
    ⟨[s], if s = .picture then b.tail else .nothing⟩
  | _ => ⟨[s], .nothing⟩

/-- What is left of a text if the selector for pictures in front of it goes to waste. -/
def unpicture (b : Behind) : Behind :=
  match b.tail with
  | .ligature .. => { b with selectors := b.selectors.filter (· ≠ .picture) }
  | _ => {}

/-- Puts a character in front of a text, unless it is one that a selector turns into a
picture. The number is what the columns of the text change by. -/
def beforePlain (c : Char) (b : Behind) : Int × Behind :=
  if c.toNat ≤ 0xA0 then
    if c = '\n' then (1, { tail := .lineFeed })
    else if c = '\r' && b.tail = .lineFeed then (0, {})
    else (1, {})
  else match Selector.ofChar? c with
    | some s => (0, b.select s)
    | none =>
      if .text ∈ b.selectors ∧ isTextual c then (1, {})
      else if .wideQuote ∈ b.selectors ∧ isQuotationMark c then (2, {})
      else match b.tail.extend? c with
        | some (n, tail) => (n, { tail })
        | none => (charColumns c, { tail := .ofChar c })

/-- Puts a character in front of a text. The number is what the columns
of the text change by. -/
def before (c : Char) (b : Behind) : Int × Behind :=
  if .picture ∈ b.selectors then
    if isSelectable c then
      (if b.tail matches .emoji _ then 0 else 2, { tail := .emoji .emoji })
    else b.unpicture.beforePlain c
  else b.beforePlain c

end Behind

/-- The columns of a line of text, and what a character in front of it may combine
with. -/
def measureLine : List Char → Int × Behind
  | [] => (0, {})
  | c :: cs =>
    let (total, behind) := measureLine cs
    let (n, behind) := behind.before c
    (total + n, behind)

/-- Columns that a line of text takes. -/
def lineColumns (cs : List Char) : Nat := (measureLine cs).1.toNat

private theorem measureLine_of_printable {cs : List Char}
    (h : ∀ c ∈ cs, 0x20 ≤ c.toNat ∧ c.toNat < 0x7F) :
    measureLine cs = ((cs.length : Int), {}) := by
  induction cs with
  | nil => rfl
  | cons c cs ih =>
    have hc := h c List.mem_cons_self
    have hn : c ≠ '\n' := by rintro rfl; exact absurd hc.1 (by decide)
    have step : Behind.before c {} = (1, {}) := by
      unfold Behind.before Behind.beforePlain
      rw [if_neg (by simp), if_pos (by omega), if_neg hn]
      simp
    rw [measureLine, ih fun d hd => h d (List.mem_cons_of_mem _ hd)]
    show ((cs.length : Int) + (Behind.before c {}).1, (Behind.before c {}).2) = _
    rw [step]
    simp

/-- Printable ASCII takes a column for each character. -/
theorem lineColumns_of_printable {cs : List Char}
    (h : ∀ c ∈ cs, 0x20 ≤ c.toNat ∧ c.toNat < 0x7F) : lineColumns cs = cs.length := by
  rw [lineColumns, measureLine_of_printable h]
  rfl

end Consult.Text
