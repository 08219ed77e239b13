import Consult.Json.Number
import Consult.Json.Quoted
import Mathlib.Data.List.TakeWhile

/-!
# Strings and integers read back

A string is written with few escapes and read in two stages.  Each escaped
character is one code for the first stage, and the codes of characters are no
surrogates, so the second stage gives the characters back.  An integer is
written in decimal, which has no leading zeros, and is read as itself.

## Main results

* `body?_escape` — a string is read up to its closing quote.
* `decodeText?_codes` — the codes of its characters denote the text.
* `spelling?_writeInt` — an integer is a number without point and exponent.
* `toInt?_ofInt` — it is read as itself.
* `isFinite_writeInt` — below 2^64 it can be taken in as a binary64 value.
-/

namespace Consult.Json

open Consult.Text (isDigit digitValue digitsValue writeNat writeInt)

/-! ## Strings -/

theorem hexValue?_hexDigit : ∀ n < 16, hexValue? (hexDigit n) = some n := by decide

/-- The letter for a control character stands for it. -/
theorem letterCode?_of_controlLetter {c e : Char} (h : controlLetter? c = some e) :
    letterCode? e = some c.toNat ∧ e ≠ 'u' := by
  unfold controlLetter? at h
  split at h
  · cases h; subst_vars; decide
  split at h
  · cases h; subst_vars; decide
  split at h
  · cases h; subst_vars; decide
  split at h
  · cases h; subst_vars; decide
  split at h
  · cases h; subst_vars; decide
  · cases h

/-- A letter behind a backslash, other than `u`, is one code. -/
theorem body?_letter {e : Char} {code : Nat} (h : letterCode? e = some code)
    (hu : e ≠ 'u') (cs : List Char) :
    body? ('\\' :: e :: cs) = (body? cs).map fun r => (code :: r.1, r.2 + 2) := by
  rw [body?.eq_3 e cs fun _ _ _ _ _ he _ => hu he, h]
  cases body? cs <;> rfl

/-- A control character without a letter is written by its number. -/
theorem body?_number {code : Nat} (h : code < 0x20) (cs : List Char) :
    body? ('\\' :: 'u' :: '0' :: '0' :: hexDigit (code / 16) ::
      hexDigit (code % 16) :: cs) =
      (body? cs).map fun r => (code :: r.1, r.2 + 6) := by
  have hhigh := hexValue?_hexDigit (code / 16) (by omega)
  have hlow := hexValue?_hexDigit (code % 16) (by omega)
  have hzero : hexValue? '0' = some 0 := by decide
  have hcode : hexCode? '0' '0' (hexDigit (code / 16)) (hexDigit (code % 16)) =
      some code := by
    unfold hexCode?
    rw [hzero, hhigh, hlow]
    show some (4096 * 0 + 256 * 0 + 16 * (code / 16) + code % 16) = some code
    have : 4096 * 0 + 256 * 0 + 16 * (code / 16) + code % 16 = code := by omega
    rw [this]
  rw [body?.eq_2, hcode]
  cases body? cs <;> rfl

/-- Any other character stands for itself. -/
theorem body?_plain {c : Char} (hquote : c ≠ '\x22') (hbackslash : c ≠ '\\')
    (hcontrol : ¬c.toNat < 0x20) (cs : List Char) :
    body? (c :: cs) = (body? cs).map fun r => (c.toNat :: r.1, r.2 + 1) := by
  rw [body?.eq_4 c cs (fun _ _ _ _ _ hc _ => hbackslash hc)
    (fun _ _ hc _ => hbackslash hc)]
  simp only [hquote, hbackslash, hcontrol, if_false, decide_false, Bool.or_self,
    Bool.false_eq_true]
  cases body? cs <;> rfl

/-- An escaped character is one code. -/
theorem body?_escapeChar (c : Char) (cs : List Char) :
    body? (escapeChar c ++ cs) =
      (body? cs).map fun r => (c.toNat :: r.1, r.2 + (escapeChar c).length) := by
  unfold escapeChar
  split
  · next hmark =>
    have hletter : letterCode? c = some c.toNat := by
      unfold letterCode?
      simp only [Bool.or_eq_true, decide_eq_true_eq] at hmark ⊢
      rw [if_pos (.inl hmark)]
    have hu : c ≠ 'u' := by
      rintro rfl
      simp at hmark
    exact body?_letter hletter hu cs
  · next hmark =>
    split
    · next e he =>
      obtain ⟨hletter, hu⟩ := letterCode?_of_controlLetter he
      exact body?_letter hletter hu cs
    · split
      · next hcontrol => exact body?_number hcontrol cs
      · next hcontrol =>
        simp only [Bool.or_eq_true, decide_eq_true_eq, not_or] at hmark
        exact body?_plain hmark.1 hmark.2 hcontrol cs

/-- A string is read up to its closing quote. -/
theorem body?_escape (cs rest : List Char) :
    body? (escape cs ++ '\x22' :: rest) =
      some (cs.map Char.toNat, (escape cs).length + 1) := by
  induction cs with
  | nil =>
      have hquote :=
        body?.eq_4 '\x22' rest (fun _ _ _ _ _ hc _ => absurd hc (by decide))
        (fun _ _ hc _ => absurd hc (by decide))
      exact hquote
  | cons c cs ih =>
      have hcons : escape (c :: cs) = escapeChar c ++ escape cs := List.flatMap_cons
      rw [hcons, List.append_assoc, body?_escapeChar, ih]
      simp only [Option.map_some, List.map_cons, List.length_append]
      congr 2
      omega

theorem not_surrogate (c : Char) :
    isHighSurrogate c.toNat = false ∧ isLowSurrogate c.toNat = false := by
  have hvalid : c.toNat < 0xD800 ∨ 0xDFFF < c.toNat ∧ c.toNat < 0x110000 := c.valid
  simp only [isHighSurrogate, isLowSurrogate, Bool.and_eq_false_iff,
    decide_eq_false_iff_not]
  omega

/-- The codes of characters denote these. -/
theorem decode?_map_toNat (cs : List Char) : decode? (cs.map Char.toNat) = some cs := by
  induction cs with
  | nil => rfl
  | cons c cs ih =>
      obtain ⟨hhigh, hlow⟩ := not_surrogate c
      cases cs with
      | nil => simp [decode?, hhigh, hlow, Char.ofNat_toNat]
      | cons next cs =>
          rw [List.map_cons, List.map_cons, decode?.eq_3, hhigh, hlow]
          rw [List.map_cons] at ih
          simp [ih, Char.ofNat_toNat]

theorem decodeText?_codes (s : String) :
    decodeText? (s.toList.map Char.toNat) = some s := by
  rw [decodeText?, decode?_map_toNat]
  simp

/-! ## Integers -/

theorem isDigit_of_mem_writeNat {n : Nat} {c : Char} (h : c ∈ (writeNat n).toList) :
    isDigit c = true := by
  have hdigit : c.isDigit = true := by
    unfold writeNat at h
    rw [Nat.toString_eq_repr, Nat.toList_repr] at h
    exact Nat.isDigit_of_mem_toDigits (by decide) (by decide) h
  simpa [isDigit, Char.isDigit, Char.le_def] using hdigit

theorem writeNat_ne_nil (n : Nat) : (writeNat n).toList ≠ [] := by
  unfold writeNat
  rw [Nat.toString_eq_repr, Nat.toList_repr]
  exact Nat.toDigits_ne_nil

/-- The digits of a number have it as their value. -/
theorem digitsValue_writeNat (n : Nat) : digitsValue 0 (writeNat n).toList = n := by
  unfold writeNat
  rw [Nat.toString_eq_repr, Nat.toList_repr]
  exact Nat.ofDigitChars_ten_toDigits

/-- No number but zero begins with the digit zero. -/
theorem eq_zero_of_head? {n : Nat} (h : (writeNat n).toList.head? = some '0') :
    n = 0 := by
  unfold writeNat at h
  rw [Nat.toString_eq_repr, Nat.toList_repr] at h
  induction n using Nat.strongRecOn with
  | _ n ih =>
      rw [Nat.toDigits_eq_if (by decide)] at h
      split at h
      · simpa using h
      · next hlarge =>
        have hhead : (Nat.toDigits 10 (n / 10)).head? = some '0' := by
          rw [List.head?_append] at h
          cases hfirst : (Nat.toDigits 10 (n / 10)).head? with
          | none => exact absurd (List.head?_eq_none_iff.1 hfirst) Nat.toDigits_ne_nil
          | some c => rwa [hfirst, Option.some_or] at h
        have hrest := ih (n / 10) (by omega) hhead
        omega

/-- A run of digits without leading zeros, perhaps behind a minus sign, is an
integer. -/
theorem spelling?_digits {ds : List Char} (negative : Bool) (hne : ds ≠ [])
    (hdigits : ∀ c ∈ ds, isDigit c = true)
    (hlead : ds.head? = some '0' → ds.length = 1) :
    spelling? (if negative then '-' :: ds else ds) =
      some ⟨negative, ds, [], 0, false⟩ := by
  have htake : ds.takeWhile isDigit = ds := List.takeWhile_eq_self_iff.2 hdigits
  have hdrop : ds.dropWhile isDigit = [] := List.dropWhile_eq_nil_iff.2 hdigits
  cases negative with
  | true => simpa [spelling?, htake, hdrop, exponent?] using ⟨hne, hlead⟩
  | false =>
      have hsign : ds.head? ≠ some '-' := by
        intro hhead
        have hminus := hdigits '-' (List.mem_of_head? hhead)
        exact absurd hminus (by decide)
      simpa [spelling?, htake, hdrop, hsign, exponent?] using ⟨hne, hlead⟩

theorem toList_writeInt (n : Int) : (writeInt n).toList =
    if n < 0 then '-' :: (writeNat n.natAbs).toList
      else (writeNat n.natAbs).toList := by
  cases n with
  | ofNat n => simp [writeInt]
  | negSucc n => simp [writeInt, Int.negSucc_lt_zero]

/-- An integer is a number without point and exponent. -/
theorem spelling?_writeInt (n : Int) : spelling? (writeInt n).toList =
    some ⟨decide (n < 0), (writeNat n.natAbs).toList, [], 0, false⟩ := by
  have hlead : (writeNat n.natAbs).toList.head? = some '0' →
      (writeNat n.natAbs).toList.length = 1 := by
    intro hhead
    rw [eq_zero_of_head? hhead]
    decide
  have hspelling := spelling?_digits (decide (n < 0)) (writeNat_ne_nil n.natAbs)
    (fun c hc => isDigit_of_mem_writeNat hc) hlead
  rw [toList_writeInt]
  simpa using hspelling

/-- An integer is read as itself. -/
theorem toInt?_ofInt (n : Int) : (ofInt n).toInt? = some n := by
  unfold ofInt toInt?
  dsimp only
  rw [spelling?_writeInt]
  dsimp only
  rw [digitsValue_writeNat]
  by_cases hneg : n < 0
  · have hne : n.natAbs ≠ 0 := by omega
    simp only [hneg, hne, decide_true, decide_false, Bool.and_false, Bool.or_self,
      Bool.false_eq_true, if_false, if_true, Option.some.injEq]
    omega
  · simp only [hneg, decide_false, Bool.false_and, Bool.or_self, Bool.false_eq_true,
      if_false, Option.some.injEq]
    omega

theorem ofNat_eq_ofInt (n : Nat) : ofNat n = ofInt n := rfl

theorem isNumberChar_of_mem_writeInt {n : Int} {c : Char}
    (h : c ∈ (writeInt n).toList) :
    isNumberChar c = true := by
  have hdigit : ∀ c ∈ (writeNat n.natAbs).toList, isNumberChar c = true := by
    intro c hc
    simp [isNumberChar, isDigit_of_mem_writeNat hc]
  rw [toList_writeInt] at h
  split at h
  · rcases List.mem_cons.1 h with rfl | h
    · decide
    · exact hdigit c h
  · exact hdigit c h

/-! ## Integers in binary64 -/

theorem le_digitsValue (n : Nat) (ds : List Char) : n ≤ digitsValue n ds := by
  induction ds generalizing n with
  | nil => exact Nat.le_refl n
  | cons d ds ih =>
      have hstep : digitsValue n (d :: ds) = digitsValue (10 * n + digitValue d) ds :=
        rfl
      have hrest := ih (10 * n + digitValue d)
      omega

/-- Digits whose value is below 2^64 are taken up to the last. -/
theorem takeUp_eq {n : Nat} {ds : List Char} (h : digitsValue n ds < UInt64.size) :
    takeUp n ds = (digitsValue n ds, []) := by
  induction ds generalizing n with
  | nil => rfl
  | cons d ds ih =>
      have hstep : digitsValue n (d :: ds) = digitsValue (10 * n + digitValue d) ds :=
        rfl
      have hle := le_digitsValue (10 * n + digitValue d) ds
      rw [takeUp, if_pos (by omega), hstep]
      exact ih (hstep ▸ h)

/-- To round a number adds at most half a unit in the last place. -/
theorem round53_le (n : Nat) : round53 n ≤ 2 * n + 1 := by
  unfold round53
  split
  · omega
  · next hlog =>
    have hne : n ≠ 0 := by
      rintro rfl
      exact hlog (by decide)
    have hunit : Nat.pow 2 (n.log2 - 52) ≤ n := by
      have hself := Nat.log2_self_le hne
      have hmono : 2 ^ (n.log2 - 52) ≤ 2 ^ n.log2 :=
        Nat.pow_le_pow_right (by decide) (by omega)
      exact Nat.le_trans hmono hself
    dsimp only
    have hq : n / Nat.pow 2 (n.log2 - 52) * Nat.pow 2 (n.log2 - 52) ≤ n :=
      Nat.div_mul_le_self _ _
    split
    · rw [Nat.add_mul, Nat.one_mul]
      omega
    · omega

/-- An integer below 2^64 can be taken in as a binary64 value. -/
theorem isFinite_writeInt {n : Int} (h : n.natAbs < UInt64.size) :
    isFinite (writeInt n) = true := by
  unfold isFinite
  rw [spelling?_writeInt]
  have htake : takeUp 0 (writeNat n.natAbs).toList = (n.natAbs, []) := by
    rw [takeUp_eq (by rwa [digitsValue_writeNat]), digitsValue_writeNat]
  have hround := round53_le n.natAbs
  have hbound : 2 * UInt64.size + 1 < overflow := by decide +kernel
  have hone : round53 (Nat.pow 10 0) = 1 := by decide
  have hproduct : round53 n.natAbs * round53 (Nat.pow 10 0) < overflow := by
    rw [hone, Nat.mul_one]
    omega
  simp only [Spelling.isFinite, htake, takeUp, Bool.or_eq_true, Bool.and_eq_true]
  exact .inr ⟨rfl, decide_eq_true hproduct⟩

end Consult.Json
