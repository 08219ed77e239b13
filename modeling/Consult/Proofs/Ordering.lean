import Consult.Relation
import Mathlib.Data.List.DropRight
import Mathlib.Data.Nat.Digits.Defs

/-!
# What the orderings compare

The four orderings read both of their texts as integers.  A text is read by taking off
the blanks around it and folding its digits from the left; what it spells is said here
without either: there are blanks, a sign or none, digits, blanks, and the value of the
digits is the sum of each times the power of ten for its place.  That value is exact,
so there is nothing to wrap around: leading zeros add nothing to it, and a value that
does not fit into 64 bits makes the text one that no ordering accepts.

## Main results

* `Text.trimmed_between`, `Text.exists_blanks_around` — what is left of a text
  without the blanks around it.
* `Text.digitsValue_eq_decimal` — digits folded from the left have the value of their
  places.
* `integer?_eq_some_iff` — the texts that are read as an integer, and as which.
* `orderings_compare_exactly` — when an ordering holds between two texts.
-/

namespace Consult

namespace Text

/-! ## Blanks -/

/-- All that is taken off a text at its ends are blanks. -/
theorem exists_blanks_around (cs : List Char) :
    ∃ before after, cs = before ++ trimmed cs ++ after ∧
      (∀ c ∈ before, isBlank c = true) ∧ ∀ c ∈ after, isBlank c = true := by
  refine ⟨cs.takeWhile isBlank, (cs.dropWhile isBlank).rtakeWhile isBlank, ?_,
    fun c hc => List.mem_takeWhile_imp hc, fun c hc => List.mem_rtakeWhile_imp hc⟩
  have hend : trimmed cs ++ (cs.dropWhile isBlank).rtakeWhile isBlank =
      cs.dropWhile isBlank :=
    List.rdropWhile_append_rtakeWhile
  rw [List.append_assoc, hend, List.takeWhile_append_dropWhile]

/-- Blanks go, up to the first character that is none. -/
theorem dropWhile_isBlank_append {blanks core : List Char}
    (hblanks : ∀ c ∈ blanks, isBlank c = true) (hne : core ≠ [])
    (hcore : ∀ c ∈ core, isBlank c = false) (rest : List Char) :
    (blanks ++ core ++ rest).dropWhile isBlank = core ++ rest := by
  obtain ⟨c, cs, rfl⟩ := List.exists_cons_of_ne_nil hne
  rw [List.append_assoc, List.dropWhile_append_of_pos hblanks, List.cons_append,
    List.dropWhile_cons_of_neg (by simp [hcore c List.mem_cons_self])]

/-- The blanks around a text that has none of its own are all that is taken off. -/
theorem trimmed_between {before core after : List Char}
    (hbefore : ∀ c ∈ before, isBlank c = true) (hne : core ≠ [])
    (hcore : ∀ c ∈ core, isBlank c = false) (hafter : ∀ c ∈ after, isBlank c = true) :
    trimmed (before ++ core ++ after) = core := by
  have hend : (after.reverse ++ core.reverse).dropWhile isBlank = core.reverse := by
    simpa using dropWhile_isBlank_append (by simpa using hafter) (by simpa using hne)
      (by simpa using hcore) []
  rw [trimmed, dropWhile_isBlank_append hbefore hne hcore, List.reverse_append, hend,
    List.reverse_reverse]

/-! ## Digits -/

/-- The number that digits stand for, each worth the power of ten for its place. -/
def decimal (digits : List Char) : Nat :=
  Nat.ofDigits 10 (digits.reverse.map digitValue)

theorem decimal_append (ds es : List Char) :
    decimal (ds ++ es) = 10 ^ es.length * decimal ds + decimal es := by
  rw [decimal, List.reverse_append, List.map_append, Nat.ofDigits_append,
    List.length_map, List.length_reverse, Nat.add_comm]
  rfl

/-- Zeros in front add nothing. -/
theorem decimal_zeros (k : Nat) (ds : List Char) :
    decimal (List.replicate k '0' ++ ds) = decimal ds := by
  rw [decimal, List.reverse_append, List.map_append, List.reverse_replicate,
    List.map_replicate]
  exact Nat.ofDigits_append_replicate_zero _

/-- What has been read counts for as many places more as there are digits to come. -/
theorem digitsValue_eq (read : Nat) (ds : List Char) :
    digitsValue read ds = 10 ^ ds.length * read + decimal ds := by
  induction ds generalizing read with
  | nil => simp [digitsValue, decimal]
  | cons d ds ih =>
      have hplaces : decimal (d :: ds) = 10 ^ ds.length * digitValue d +
          decimal ds := by
        simpa [decimal] using decimal_append [d] ds
      calc digitsValue read (d :: ds)
          = digitsValue (10 * read + digitValue d) ds := rfl
        _ = 10 ^ ds.length * (10 * read + digitValue d) + decimal ds := ih _
        _ = 10 ^ (ds.length + 1) * read +
          (10 ^ ds.length * digitValue d + decimal ds) := by ring
        _ = 10 ^ (d :: ds).length * read + decimal (d :: ds) := by
          rw [hplaces, List.length_cons]

/-- Digits folded from the left have the value of their places. -/
theorem digitsValue_eq_decimal (ds : List Char) : digitsValue 0 ds = decimal ds := by
  rw [digitsValue_eq, Nat.mul_zero, Nat.zero_add]

/-- No digit is blank. -/
theorem isBlank_of_isDigit {c : Char} (h : isDigit c = true) : isBlank c = false := by
  obtain ⟨hzero, hnine⟩ : '0' ≤ c ∧ c ≤ '9' := by simpa [isDigit] using h
  have hlow : 48 ≤ c.toNat := hzero
  have hhigh : c.toNat ≤ 57 := hnine
  simp only [isBlank, Bool.or_eq_false_iff, Bool.and_eq_false_iff,
    decide_eq_false_iff_not, beq_eq_false_iff_ne]
  omega

/-- A natural number is read from digits, at least one, and from nothing else. -/
theorem readNat?_eq_some_iff {ds : List Char} {n : Nat} :
    readNat? ds = some n ↔ ds ≠ [] ∧ (∀ d ∈ ds, isDigit d = true) ∧ n = decimal ds := by
  unfold readNat?
  rw [digitsValue_eq_decimal]
  by_cases h : ds ≠ [] ∧ ∀ d ∈ ds, isDigit d = true
  · rw [if_pos (by simpa using h), Option.some.injEq]
    exact ⟨fun hn => ⟨h.1, h.2, hn.symm⟩, fun hn => hn.2.2.symm⟩
  · rw [if_neg (by simpa using h)]
    exact ⟨nofun, fun hn => absurd ⟨hn.1, hn.2.1⟩ h⟩

/-! ## Integers -/

/-- What a sign multiplies the number behind it by; no sign at all counts as plus. -/
inductive Sign : List Char → Int → Prop where
  | none : Sign [] 1
  | plus : Sign ['+'] 1
  | minus : Sign ['-'] (-1)

/-- An integer as it is written: a sign or none and at least one digit, and nothing
else.  Its value is exact, whatever the number of digits. -/
inductive Numeral : List Char → Int → Prop where
  | intro {sign digits : List Char} {factor : Int} (hsign : Sign sign factor)
      (hne : digits ≠ [])
      (hdigits : ∀ d ∈ digits, isDigit d = true) :
      Numeral (sign ++ digits) (factor * (decimal digits : Int))

/-- The text is an integer with blanks around it, if any. -/
inductive Spells : String → Int → Prop where
  | intro {before numeral after : List Char} {n : Int}
      (hbefore : ∀ c ∈ before, isBlank c = true)
      (hnumeral : Numeral numeral n) (hafter : ∀ c ∈ after, isBlank c = true) :
      Spells (.ofList (before ++ numeral ++ after)) n

theorem Numeral.ne_nil {cs : List Char} {n : Int} (h : Numeral cs n) : cs ≠ [] := by
  obtain ⟨hsign, hne, -⟩ := h
  exact List.append_ne_nil_of_right_ne_nil _ hne

/-- There are no blanks inside an integer. -/
theorem Numeral.isBlank {cs : List Char} {n : Int} (h : Numeral cs n) :
    ∀ c ∈ cs, Text.isBlank c = false := by
  obtain ⟨hsign, -, hdigits⟩ := h
  intro c hc
  rcases List.mem_append.1 hc with hc | hc
  · cases hsign with
    | none => cases hc
    | plus => rw [List.mem_singleton.1 hc]; decide
    | minus => rw [List.mem_singleton.1 hc]; decide
  · exact isBlank_of_isDigit (hdigits c hc)

/-- The sign decides how the digits behind it are read. -/
theorem readInt?_sign {sign digits : List Char} {factor : Int}
    (hsign : Sign sign factor) (hne : digits ≠ [])
    (hdigits : ∀ d ∈ digits, isDigit d = true) :
    readInt? (sign ++ digits) = some (factor * (decimal digits : Int)) := by
  have hread : readNat? digits = some (decimal digits) :=
    readNat?_eq_some_iff.2 ⟨hne, hdigits, rfl⟩
  cases hsign with
  | none =>
      -- A digit is no sign.
      have hplus : ∀ cs, digits ≠ '+' :: cs := by
        rintro cs rfl
        exact absurd (hdigits '+' List.mem_cons_self) (by decide)
      have hminus : ∀ cs, digits ≠ '-' :: cs := by
        rintro cs rfl
        exact absurd (hdigits '-' List.mem_cons_self) (by decide)
      rw [List.nil_append, readInt?.eq_3 digits hplus hminus, hread, Int.one_mul]
      rfl
  | plus => simp [readInt?, hread]
  | minus => simp [readInt?, hread]

/-- An integer is read from what is written as one, and from nothing else. -/
theorem readInt?_eq_some_iff {cs : List Char} {n : Int} :
    readInt? cs = some n ↔ Numeral cs n := by
  constructor
  · intro h
    have hread {ds : List Char} (h : readNat? ds ≠ none) :
        ds ≠ [] ∧ ∀ d ∈ ds, isDigit d = true := by
      obtain ⟨m, hm⟩ := Option.ne_none_iff_exists'.1 h
      obtain ⟨hne, hdigits, -⟩ := readNat?_eq_some_iff.1 hm
      exact ⟨hne, hdigits⟩
    -- Behind the sign, if there is one, stand the digits.
    obtain ⟨sign, factor, digits, rfl, hsign, hne, hdigits⟩ : ∃ sign factor digits,
        cs = sign ++ digits ∧ Sign sign factor ∧ digits ≠ [] ∧ ∀ d ∈ digits,
        isDigit d = true := by
      unfold readInt? at h
      split at h
      · exact ⟨['+'], 1, _, rfl, .plus, hread fun hnone => by simp [hnone] at h⟩
      · exact ⟨['-'], -1, _, rfl, .minus, hread fun hnone => by simp [hnone] at h⟩
      · exact ⟨[], 1, _, rfl, .none, hread fun hnone => by simp [hnone] at h⟩
    rw [readInt?_sign hsign hne hdigits, Option.some.injEq] at h
    exact h ▸ .intro hsign hne hdigits
  · rintro ⟨hsign, hne, hdigits⟩
    exact readInt?_sign hsign hne hdigits

/-- The text spells what is read from it without the blanks around it. -/
theorem readInt?_trimmed_eq_some_iff {s : String} {n : Int} :
    readInt? (trimmed s.toList) = some n ↔ Spells s n := by
  rw [readInt?_eq_some_iff]
  constructor
  · intro h
    obtain ⟨before, after, hs, hbefore, hafter⟩ := exists_blanks_around s.toList
    have hspells := Spells.intro hbefore h hafter
    rwa [← hs, String.ofList_toList] at hspells
  · rintro ⟨hbefore, hnumeral, hafter⟩
    rwa [String.toList_ofList,
      trimmed_between hbefore hnumeral.ne_nil hnumeral.isBlank hafter]

/-- A text has only one value. -/
theorem Spells.unique {s : String} {m n : Int} (hm : Spells s m) (hn : Spells s n) :
    m = n := by
  rw [← readInt?_trimmed_eq_some_iff] at hm hn
  exact Option.some.inj (hm.symm.trans hn)

end Text

/-! ## The orderings -/

/-- The text spells an integer, and this is one of 64 bits. -/
def Readable (s : String) (n : Int) : Prop :=
  Text.Spells s n ∧ -2 ^ 63 ≤ n ∧ n ≤ 2 ^ 63 - 1

/-- The texts that are read as an integer, and as which. -/
theorem integer?_eq_some_iff {s : String} {n : Int} :
    integer? s = some n ↔ Readable s n := by
  have hmin : Int64.minValue.toInt = -2 ^ 63 := rfl
  have hmax : Int64.maxValue.toInt = 2 ^ 63 - 1 := rfl
  rw [Readable, ← Text.readInt?_trimmed_eq_some_iff]
  unfold integer?
  rw [hmin, hmax]
  cases hread : Text.readInt? (Text.trimmed s.toList) with
  | none => simp
  | some m =>
      simp only [Option.ite_none_right_eq_some, Bool.and_eq_true, decide_eq_true_eq,
        Option.some.injEq]
      exact ⟨fun ⟨hfits, hm⟩ => ⟨hm, hm ▸ hfits⟩, fun ⟨hm, hfits⟩ => ⟨hm ▸ hfits, hm⟩⟩

namespace Relation

section

variable {a b : String} {m n : Int} {r : Relation}

/-- An ordering holds between texts if it does between their values. -/
theorem holds_iff_of_ne_eq (hr : r ≠ eq) :
    r.holds a b = true ↔ ∃ m n, Readable a m ∧ Readable b n ∧ r.between m n = true := by
  simp only [holds_of_ne_eq hr, integer?_eq_some_iff]

theorem holds_of_readable (hr : r ≠ eq) (ha : Readable a m) (hb : Readable b n) :
    r.holds a b = r.between m n := by
  rw [Bool.eq_iff_iff, holds_iff_of_ne_eq hr]
  constructor
  · rintro ⟨m', n', ha', hb', h⟩
    rwa [ha.1.unique ha'.1, hb.1.unique hb'.1]
  · intro h
    exact ⟨m, n, ha, hb, h⟩

theorem holds_of_not_readable (hr : r ≠ eq)
    (h : ¬((∃ m, Readable a m) ∧ ∃ n, Readable b n)) : r.holds a b = false := by
  rw [Bool.eq_false_iff, Ne, holds_iff_of_ne_eq hr]
  rintro ⟨m, n, ha, hb, -⟩
  exact h ⟨⟨m, ha⟩, n, hb⟩

end

/-- An ordering holds between two texts if and only if both spell integers of 64
bits, blanks around them aside, and the exact values of these stand in that relation.
So of two texts that do, one is greater, less, or neither of the two, and they hold
in no ordering otherwise; a value that does not fit into 64 bits is not taken for
another one that does. -/
theorem orderings_compare_exactly (a b : String) :
    (gt.holds a b = true ↔ ∃ m n, Readable a m ∧ Readable b n ∧ m > n) ∧
      (gte.holds a b = true ↔ ∃ m n, Readable a m ∧ Readable b n ∧ m ≥ n) ∧
      (lt.holds a b = true ↔ ∃ m n, Readable a m ∧ Readable b n ∧ m < n) ∧
      (lte.holds a b = true ↔ ∃ m n, Readable a m ∧ Readable b n ∧ m ≤ n) ∧
      ((∃ m, Readable a m) → (∃ n, Readable b n) →
        [gt.holds a b, lt.holds a b, gte.holds a b && lte.holds a b].count true = 1) ∧
      (¬((∃ m, Readable a m) ∧ ∃ n, Readable b n) → ∀ r ≠ eq, r.holds a b = false) ∧
      ∀ n, Text.Spells a n ∨ Text.Spells b n → n < -2 ^ 63 ∨ 2 ^ 63 ≤ n →
        ∀ r ≠ eq, r.holds a b = false := by
  refine ⟨?gt, ?gte, ?lt, ?lte, ?readable, ?unreadable, ?unbounded⟩
  case gt => simp [holds_iff_of_ne_eq, between]
  case gte => simp [holds_iff_of_ne_eq, between]
  case lt => simp [holds_iff_of_ne_eq, between]
  case lte => simp [holds_iff_of_ne_eq, between]
  case readable =>
    rintro ⟨m, ha⟩ ⟨n, hb⟩
    have hgt := holds_of_readable (r := gt) (by decide) ha hb
    have hgte := holds_of_readable (r := gte) (by decide) ha hb
    have hlt := holds_of_readable (r := lt) (by decide) ha hb
    have hlte := holds_of_readable (r := lte) (by decide) ha hb
    rw [hgt, hgte, hlt, hlte]
    rcases Int.lt_trichotomy m n with h | rfl | h
    · have hgt : ¬n < m := by omega
      have hgte : ¬n ≤ m := by omega
      simp [between, h, hgt, hgte]
    · simp [between]
    · have hlt : ¬m < n := by omega
      have hlte : ¬m ≤ n := by omega
      simp [between, h, hlt, hlte]
  case unreadable => exact fun h r hr => holds_of_not_readable hr h
  case unbounded =>
    intro n hspells hn r hr
    refine holds_of_not_readable hr ?_
    rintro ⟨⟨m, ha, hm⟩, m', hb, hm'⟩
    rcases hspells with hspells | hspells
    · have hvalue := hspells.unique ha
      omega
    · have hvalue := hspells.unique hb
      omega

/-- The least integer of 64 bits, with blanks around it. -/
def leastText : String := "\u00A0-9223372036854775808\n"

/-- Seven, behind so many zeros. -/
def paddedText (zeros : Nat) : String := .ofList (List.replicate zeros '0' ++ ['7'])

theorem readable_paddedText (zeros : Nat) : Readable (paddedText zeros) 7 := by
  have hdigits : ∀ d ∈ List.replicate zeros '0' ++ ['7'], Text.isDigit d = true := by
    intro d hd
    rcases List.mem_append.1 hd with hd | hd
    · rw [List.eq_of_mem_replicate hd]
      decide
    · rw [List.mem_singleton.1 hd]
      decide
  have hseven : Text.decimal ['7'] = 7 := rfl
  have hnumeral := Text.Numeral.intro .none (by simp) hdigits
  rw [Text.decimal_zeros, hseven] at hnumeral
  have hspells :=
    Text.Spells.intro (List.forall_mem_nil _) hnumeral (List.forall_mem_nil _)
  exact ⟨by simpa [paddedText] using hspells, by decide, by decide⟩

/-- Seven, with a thousand zeros in front of it, is greater than the least integer
and nothing else. One more than the greatest integer stands in no ordering, and
neither do two signs. -/
theorem extremes_compared :
    Readable (paddedText 1000) 7 ∧ Readable leastText (-2 ^ 63) ∧
      gt.holds (paddedText 1000) leastText = true ∧
        lte.holds leastText (paddedText 1000) = true ∧
      [gt.holds (paddedText 1000) leastText, lt.holds (paddedText 1000) leastText,
        gte.holds (paddedText 1000) leastText &&
          lte.holds (paddedText 1000) leastText].count true =
          1 ∧
      (∀ r ≠ eq, r.holds leastText "9223372036854775808" = false) ∧
      ∀ r ≠ eq, r.holds (paddedText 1000) "+-7" = false := by
  have hseven := readable_paddedText 1000
  have hleast : Readable leastText (-2 ^ 63) :=
    integer?_eq_some_iff.1 (by decide +kernel)
  obtain ⟨hgt, -, -, -, hone, -⟩ :=
    orderings_compare_exactly (paddedText 1000) leastText
  obtain ⟨-, -, -, hlte, -⟩ := orderings_compare_exactly leastText (paddedText 1000)
  obtain ⟨-, -, -, -, -, -, hunbounded⟩ :=
    orderings_compare_exactly leastText "9223372036854775808"
  obtain ⟨-, -, -, -, -, hunreadable, -⟩ :=
    orderings_compare_exactly (paddedText 1000) "+-7"
  refine ⟨hseven, hleast, hgt.2 ⟨7, -2 ^ 63, hseven, hleast, by decide⟩,
    hlte.2 ⟨-2 ^ 63, 7, hleast, hseven, by decide⟩, hone ⟨7, hseven⟩ ⟨-2 ^ 63, hleast⟩,
    hunbounded (2 ^ 63) (.inr ?_) (.inr (by decide)), hunreadable ?_⟩
  · exact Text.readInt?_trimmed_eq_some_iff.1 (by decide +kernel)
  · rintro ⟨-, n, hn⟩
    have hnone : integer? "+-7" = none := by decide +kernel
    exact nomatch hnone.symm.trans (integer?_eq_some_iff.2 hn)

end Relation

end Consult
