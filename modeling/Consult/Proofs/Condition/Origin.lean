import Consult.Proofs.Condition.Complement
import Consult.Proofs.Condition.Simplify

/-!
# Where comparisons come from

A condition that has been rewritten should compare nothing that was not compared
before.  What simplifying leaves should be there to begin with.  The complement may
also test a fact for another one of its known values, and nothing else.

Most comparisons are taken over as they stand.  Those that are put together anew, for
common alternatives and for the other values of a fact, lose the blanks around their
texts on the way.  As the texts of facts and values count with their blanks, such a
comparison is a different one.  So the promise is kept up to blanks: it is broken
exactly where a comparison turns up that has lost some and was not there without them.

## Main results

* `leaves_complement` — each comparison of the complement is admitted, blanks aside.
* `inventsNothing_iff` — when rewriting makes up no comparisons.
* `inventsNothing_of_trimmed` — it makes up none if there are no blanks to lose.
-/

namespace Consult

namespace ValueRange

variable {range : ValueRange} {c : Condition} {l : Comparison}

/-- The comparison is in the condition, or it tests a fact in the
condition for a known value. -/
def Admits (range : ValueRange) (c : Condition) (l : Comparison) : Prop :=
  l ∈ c.leaves ∨
    l.relation = .eq ∧ l.value ∈ range.values l.name ∧ ∃ test ∈ c.leaves,
    test.name = l.name

instance (range : ValueRange) (c : Condition) (l : Comparison) :
    Decidable (range.Admits c l) :=
  inferInstanceAs (Decidable (_ ∨ _))

/-- The comparison is what is left of the test for another value of a fact in the
condition when the blanks around its texts are taken away. -/
def Strips (range : ValueRange) (c : Condition) (l : Comparison) : Prop :=
  ∃ test ∈ c.leaves, test.isPlain = true ∧ ∃ value ∈ range.others test.name test.value,
    ¬Comparison.Trimmed ⟨test.name, value, .eq⟩ ∧ l = .ofTrimmed test.name .eq value

/-- Rewriting the condition makes up no comparisons. -/
structure InventsNothing (range : ValueRange) (c : Condition) : Prop where
  simplify : ∀ l ∈ c.simplify.leaves, l ∈ c.leaves
  complement : ∀ l ∈ (c.complement range).leaves, range.Admits c l

theorem Admits.of_member {k : Nat} {cs : List Condition} (hc : c ∈ cs)
    (h : range.Admits c l) :
    range.Admits (.atLeast k cs) l := by
  rcases h with hl | ⟨hrelation, hvalue, test, htest, hname⟩
  · exact .inl (Condition.mem_leaves_atLeast.2 ⟨c, hc, hl⟩)
  · exact .inr ⟨hrelation, hvalue, test, Condition.mem_leaves_atLeast.2
      ⟨c, hc, htest⟩, hname⟩

theorem Strips.of_member {k : Nat} {cs : List Condition} (hc : c ∈ cs)
    (h : range.Strips c l) :
    range.Strips (.atLeast k cs) l := by
  obtain ⟨test, htest, hstripped⟩ := h
  exact ⟨test, Condition.mem_leaves_atLeast.2 ⟨c, hc, htest⟩, hstripped⟩

theorem Trimmed.not_strips (hrange : range.Trimmed) (htrimmed : c.Trimmed) :
    ¬range.Strips c l := by
  rintro ⟨test, htest, -, value, hvalue, hblanks, -⟩
  exact hblanks ⟨(htrimmed test htest).1, hrange.of_mem_others _ _ value hvalue⟩

end ValueRange

namespace Condition

variable {range : ValueRange}

/-- The complement of a comparison compares the same, or the same fact with another
value. -/
theorem leaves_complementOf (c : Comparison) :
    ∀ l ∈ (complementOf range c).leaves,
      range.Admits (compare c) l ∨ range.Strips (compare c) l := by
  intro l hl
  have hmem : c ∈ (compare c).leaves := List.mem_singleton_self c
  rcases complementOf_cases range c with ⟨hplain, -, heq⟩ | ⟨-, heq⟩
  · have hchoice : ∃ value ∈ range.others c.name c.value, l =
        .ofTrimmed c.name .eq value := by
      simpa [heq, any, equals, eq_comm] using hl
    obtain ⟨value, hvalue, rfl⟩ := hchoice
    by_cases htrimmed : Comparison.Trimmed ⟨c.name, value, .eq⟩
    · rw [htrimmed.ofTrimmed_eq]
      exact .inl (.inr ⟨rfl, (ValueRange.mem_others.1 hvalue).1, c, hmem, rfl⟩)
    · exact .inr ⟨c, hmem, hplain, value, hvalue, htrimmed, rfl⟩
  · rw [heq] at hl
    exact .inl (.inl hl)

/-- The complement compares what the condition compares, or one of its facts with
another known value, but some of these comparisons may have lost blanks. -/
theorem leaves_complement (c : Condition) :
    ∀ l ∈ (c.complement range).leaves, range.Admits c l ∨ range.Strips c l := by
  induction c using Condition.induction with
  | compare c => exact leaves_complementOf c
  | negation c _ => exact fun l hl => .inl (.inl hl)
  | atLeast k cs ih =>
      intro l hl
      by_cases hk : k = 0
      · rw [complement, if_pos hk] at hl
        exact .inl (.inl hl)
      · rw [complement_atLeast hk] at hl
        obtain ⟨_, hmem, hl⟩ := mem_leaves_atLeast.1 hl
        obtain ⟨c, hc, rfl⟩ := List.mem_map.1 hmem
        exact (ih c hc l hl).imp (ValueRange.Admits.of_member hc)
          (ValueRange.Strips.of_member hc)

end Condition

/-- Rewriting makes up no comparisons if and only if each one that has lost its blanks
was there without them, or may be there. -/
theorem inventsNothing_iff (range : ValueRange) (c : Condition) :
    range.InventsNothing c ↔
      (∀ l ∈ c.simplify.leaves, c.Strips l → l ∈ c.leaves) ∧
        ∀ l ∈ (c.complement range).leaves, range.Strips c l → range.Admits c l := by
  constructor
  · intro h
    exact ⟨fun l hl _ => h.simplify l hl, fun l hl _ => h.complement l hl⟩
  · rintro ⟨hsimplify, hcomplement⟩
    constructor
    · intro l hl
      exact (c.leaves_simplify l hl).elim id (hsimplify l hl)
    · intro l hl
      exact (c.leaves_complement l hl).elim id (hcomplement l hl)

/-- Rewriting makes up no comparisons if no text has blanks around it. -/
theorem inventsNothing_of_trimmed {range : ValueRange} {c : Condition}
    (hrange : range.Trimmed) (htrimmed : c.Trimmed) : range.InventsNothing c where
  simplify := fun l hl => (c.leaves_simplify l hl).resolve_right htrimmed.not_strips
  complement := fun l hl =>
    (c.leaves_complement l hl).resolve_right (hrange.not_strips htrimmed)

/-- The light is red or yellow, and yellow or green; there is a blank before
the name of the fact. -/
def paddedLight : Condition :=
  .all
    [.any [.test " light" "red", .test " light" "yellow"],
      .any [.test " light" "yellow", .test " light" "green"]]

/-- Simplified, it is about another fact. -/
theorem simplify_paddedLight : paddedLight.simplify = .test "light" "yellow" := by
  decide

/-- The light is red or yellow; there is a blank before the name of the second
colour. -/
def paddedColours : ValueRange :=
  .addAll .empty [("light", "red"), ("light", " yellow")]

/-- The complement has a colour that is not known. -/
theorem complement_paddedColours :
    (Condition.test "light" "red").complement paddedColours =
      .any [.test "light" "yellow"] := by
  decide

/-- Neither simplifying nor taking the complement keeps the promise. -/
theorem not_always_inventsNothing :
    ¬(∀ c : Condition, ∀ l ∈ c.simplify.leaves, l ∈ c.leaves) ∧
      ¬∀ (range : ValueRange) (c : Condition), ∀ l ∈ (c.complement range).leaves,
        range.Admits c l := by
  constructor
  · intro h
    have hkept := h paddedLight
    rw [simplify_paddedLight] at hkept
    have hmem : ⟨"light", "yellow", .eq⟩ ∈ paddedLight.leaves :=
      hkept _ (List.mem_singleton_self _)
    exact absurd hmem (by decide)
  · intro h
    have hadmitted := h paddedColours (.test "light" "red")
    rw [complement_paddedColours] at hadmitted
    have hyellow : paddedColours.Admits (.test "light" "red")
        ⟨"light", "yellow", .eq⟩ :=
      hadmitted _ (List.mem_singleton_self _)
    exact absurd hyellow (by decide)

end Consult
