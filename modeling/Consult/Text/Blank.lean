/-!
# Blanks around a text

The blank characters are those with the Unicode property `White_Space`.
`trim` removes them from both ends of a text; a text that neither begins nor
ends with a blank is left alone.
-/

namespace Consult.Text

/-- The blank characters: the 25 code points with the property `White_Space`. -/
def isBlank (c : Char) : Bool :=
  let n := c.toNat
  (9 ≤ n && n ≤ 13) || n == 0x20 || n == 0x85 || n == 0xA0 || n == 0x1680 ||
    (0x2000 ≤ n && n ≤ 0x200A) || n == 0x2028 || n == 0x2029 || n == 0x202F ||
    n == 0x205F || n == 0x3000

/-- The characters of a text without the blanks at both of its ends. -/
def trimmed (cs : List Char) : List Char :=
  ((cs.dropWhile isBlank).reverse.dropWhile isBlank).reverse

/-- The text without the blanks at both of its ends. -/
def trim (s : String) : String := .ofList (trimmed s.toList)

/-- A text that neither begins nor ends with a blank. -/
def Trimmed (s : String) : Prop := trim s = s

instance (s : String) : Decidable (Trimmed s) :=
  inferInstanceAs (Decidable (trim s = s))

private theorem dropWhile_dropWhile (p : Char → Bool) (cs : List Char) :
    (cs.dropWhile p).dropWhile p = cs.dropWhile p := by
  induction cs with
  | nil => rfl
  | cons c cs ih => by_cases h : p c <;> simp [h, ih]

private theorem dropWhile_append_of_last (p : Char → Bool) {cs : List Char} {c : Char}
    (hc : p c = false) : (cs ++ [c]).dropWhile p = cs.dropWhile p ++ [c] := by
  induction cs with
  | nil => simp [hc]
  | cons d cs ih => by_cases h : p d <;> simp [h, ih]

/-- Dropping from the end leaves alone what dropping from the front has cleared. -/
private theorem dropWhile_reverse_dropWhile (p : Char → Bool) (cs : List Char)
    (h : cs.dropWhile p = cs) :
    (cs.reverse.dropWhile p).reverse.dropWhile p =
      (cs.reverse.dropWhile p).reverse := by
  cases cs with
  | nil => rfl
  | cons c cs =>
    have hc : p c = false := by
      by_cases hc : p c
      · have hl := congrArg List.length h
        have := (List.dropWhile_sublist p (l := cs)).length_le
        simp [hc] at hl
        omega
      · simpa using hc
    simp [List.reverse_cons, dropWhile_append_of_last p hc, hc]

theorem trimmed_trimmed (cs : List Char) : trimmed (trimmed cs) = trimmed cs := by
  have h := dropWhile_reverse_dropWhile isBlank _ (dropWhile_dropWhile isBlank cs)
  simp only [trimmed, h, List.reverse_reverse, dropWhile_dropWhile]

/-- What `trim` returns has no blanks at its ends. -/
theorem trimmed_trim (s : String) : Trimmed (trim s) := by
  simp [Trimmed, trim, String.toList_ofList, trimmed_trimmed]

end Consult.Text
