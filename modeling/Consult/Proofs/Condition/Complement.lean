import Consult.Proofs.Condition.Alternatives
import Consult.Proofs.Condition.Groups

/-!
# The complement says the opposite

If a range lists all values that facts really have, the complement of a condition
holds exactly if the condition does not, is undecided exactly if the condition is,
and has the same faults.  For a plain test this is so since both are judged by the
value of the same fact, which is one of the other values unless it is the tested
one.  A group passes it on by counting: at least `k` of `n` members hold if and
only if fewer than `n - k + 1` of the opposites do.

## Main results

* `complementOf_cases` — the complement of a comparison.
* `judge_complement` — the complement is judged the opposite way.
* `complement_opposes` — the same faults, and opposite verdicts.
-/

namespace Consult

namespace ValueRange

/-- No listed value has blanks around it. -/
def Trimmed (range : ValueRange) : Prop :=
  ∀ e ∈ range.known.entries, ∀ value ∈ e.2, Text.Trimmed value

instance (range : ValueRange) : Decidable range.Trimmed :=
  inferInstanceAs (Decidable (∀ e ∈ range.known.entries, _))

variable {range : ValueRange}

theorem Trimmed.of_mem_values (h : range.Trimmed) {fact value : String}
    (hvalue : value ∈ range.values fact) : Text.Trimmed value := by
  rcases range.values_eq_nil_or fact with hnil | hentry
  · simp [hnil] at hvalue
  · exact h _ hentry value hvalue

/-- The known values of a fact, but for one. -/
def others (range : ValueRange) (name value : String) : List String :=
  (range.values name).filter (· ≠ value)

theorem mem_others {name value other : String} :
    other ∈ range.others name value ↔ other ∈ range.values name ∧ other ≠ value := by
  simp [others]

theorem Trimmed.of_mem_others (h : range.Trimmed) (name value : String) :
    ∀ other ∈ range.others name value, Text.Trimmed other :=
  fun _ hother => h.of_mem_values (mem_others.1 hother).1

/-- Whatever value a fact has that the condition plainly tests, the range lists it. -/
def Covers (range : ValueRange) (facts : Facts) (c : Condition) : Prop :=
  ∀ l ∈ c.leaves, l.isPlain = true →
    ∀ value, facts.value l.name = .ok (some value) → value ∈ range.values l.name

theorem covers_atLeast {facts : Facts} {k : Nat} {cs : List Condition} :
    range.Covers facts (.atLeast k cs) ↔ ∀ c ∈ cs, range.Covers facts c :=
  Condition.forall_mem_leaves_atLeast

end ValueRange

theorem Comparison.isPlain_iff {c : Comparison} :
    c.isPlain = true ↔ c.relation = .eq ∧ isVariable c.name = false ∧
      isVariable c.value = false := by
  simp [isPlain, and_assoc]

namespace Condition

variable {range : ValueRange} {facts : Facts}

theorem compare_of_isPlain {c : Comparison} (h : c.isPlain = true) :
    compare c = test c.name c.value := by
  rw [test, ← (Comparison.isPlain_iff.1 h).1]

/-- The complement of a comparison is a choice between other values, if it is a plain
test and other values are known, and its negation otherwise. -/
theorem complementOf_cases (range : ValueRange) (c : Comparison) :
    (c.isPlain = true ∧ range.others c.name c.value ≠ [] ∧
        complementOf range c =
          any ((range.others c.name c.value).map (equals c.name))) ∨
      (c.isPlain = false ∨ range.others c.name c.value = []) ∧
        complementOf range c = negation (compare c) := by
  unfold complementOf
  split
  · next hplain =>
    split
    · next hnil => exact .inr ⟨.inr hnil, rfl⟩
    · next hne => exact .inl ⟨hplain, hne, rfl⟩
  · next hplain => exact .inr ⟨.inl (by simpa using hplain), rfl⟩

/-- The other known values of a fact, as alternatives. -/
theorem plain_others {name value : String} (hname : isVariable name = false)
    (hne : range.others name value ≠ []) :
    PlainChoice name (range.others name value) where
  fact := hname
  literal := fun _ hother =>
    ValueRange.isVariable_of_mem_values (ValueRange.mem_others.1 hother).1
  ne_nil := hne

/-- A fact has one of the other values if and only if it has not the tested one,
provided that its value is among those listed. -/
theorem ofValue_others {name value : String} {known : Option String}
    (hlisted : ∀ actual, known = some actual → actual ∈ range.values name) :
    Verdict.ofValue (range.others name value) known =
      (Verdict.ofValue [value] known).flip := by
  cases known with
  | none => rfl
  | some actual =>
      have hactual := hlisted actual rfl
      by_cases h : actual = value <;>
        simp [Verdict.ofValue, ValueRange.mem_others, hactual, h, Verdict.flip]

theorem judge_complementOf {c : Comparison} (htrimmed : c.Trimmed)
    (hrange : range.Trimmed) (hcovers : range.Covers facts (compare c)) :
    (complementOf range c).judge facts = ((compare c).judge facts).map .flip := by
  rcases complementOf_cases range c with ⟨hplain, hne, heq⟩ | ⟨-, heq⟩
  · obtain ⟨-, hname, hvalue⟩ := Comparison.isPlain_iff.1 hplain
    have hlisted := hcovers c (List.mem_singleton_self c) hplain
    rw [heq, map_equals htrimmed.1 (hrange.of_mem_others _ _),
      judge_any_test (plain_others hname hne), compare_of_isPlain hplain,
      judge_test hname hvalue]
    cases hknown : facts.value c.name with
    | error fault => rfl
    | ok known =>
        refine congrArg Except.ok (ofValue_others fun value hsome => hlisted value ?_)
        rw [hknown, hsome]
  · rw [heq, judge_negation]

/-- The complement is judged the opposite way. -/
theorem judge_complement (c : Condition) (hthresholds : c.EachGroup (· ≤ ·))
    (htrimmed : c.Trimmed) (hrange : range.Trimmed) (hcovers : range.Covers facts c) :
    (c.complement range).judge facts = (c.judge facts).map .flip := by
  induction c using Condition.induction with
  | compare c =>
      rw [complement]
      exact judge_complementOf (trimmed_compare.1 htrimmed) hrange hcovers
  | negation c _ =>
      rw [complement, judge_negation, Judgement.map_flip_map_flip]
  | atLeast k cs ih =>
      by_cases hk : k = 0
      · rw [complement, if_pos hk, judge_negation]
      · obtain ⟨hle, hthresholds⟩ := eachGroup_atLeast.1 hthresholds
        have htrimmed := trimmed_atLeast.1 htrimmed
        have hcovers := ValueRange.covers_atLeast.1 hcovers
        have hmembers : (cs.map (complement range)).map (judge facts) =
            (cs.map (judge facts)).map (Except.map .flip) := by
          rw [List.map_map, List.map_map]
          exact List.map_congr_left fun c hc =>
            ih c hc (hthresholds c hc) (htrimmed c hc) (hcovers c hc)
        have hle : k ≤ (cs.map (judge facts)).length := by rwa [List.length_map]
        have hflip := Judgement.atLeast_flip hle
        rw [List.length_map] at hflip
        rw [complement_atLeast hk, judge_atLeast, hmembers, hflip, judge_atLeast]

/-- If the range lists the values that facts have, then a checked condition and its
complement have the same faults and opposite verdicts. -/
theorem complement_opposes (range : ValueRange) (c : Condition) (facts : Facts)
    (hcheck : c.check = .ok ()) (htrimmed : c.Trimmed) (hrange : range.Trimmed)
    (hcovers : range.Covers facts c) :
    (∀ fault, (c.complement range).evaluate facts = .error fault ↔
        c.evaluate facts = .error fault) ∧
      ∀ f f', c.evaluate facts = .ok f → (c.complement range).evaluate facts = .ok f' →
        f'.verdict = f.verdict.flip :=
  evaluate_of_judge_eq
    (judge_complement c (check_eq_ok.1 hcheck) htrimmed hrange hcovers)

/-- Two of these three: the light is red, the barrier is not up, and there is a train
coming fast or the light is green. -/
def caution : Condition :=
  .atLeast 2
    [.equals "light" "red", .negation (.equals "barrier" "up"),
      .any [.compare ⟨"speed", "50", .gt⟩, .equals "light" "green"]]

/-- What the light and the barrier can be. -/
def signals : ValueRange :=
  .addAll .empty [("light", "red"), ("light", "yellow"), ("light", "green"),
    ("barrier", "up"), ("barrier", "down")]

/-- The light is green and the barrier up. -/
def passFacts : Facts :=
  Facts.initial.record ((KeyMap.empty.insert "light" "green").insert "barrier" "up")
    (.given "Seen")

theorem caution_opposed :
    caution.check = .ok () ∧ caution.Trimmed ∧ signals.Trimmed ∧
      signals.Covers passFacts caution ∧
      caution.complement signals =
        .atLeast 2 [.any [.equals "light" "yellow", .equals "light" "green"],
          .equals "barrier" "up",
          .atLeast 2 [.negation (.compare ⟨"speed", "50", .gt⟩),
            .any [.equals "light" "red", .equals "light" "yellow"]]] ∧
      ∃ f f', caution.evaluate passFacts = .ok f ∧ f.verdict = .no ∧
        (caution.complement signals).evaluate passFacts = .ok f' ∧
          f'.verdict = .yes := by
  have hknown : ∀ l ∈ caution.leaves, l.isPlain = true →
      ∃ value ∈ signals.values l.name, passFacts.value l.name =
      .ok (some value) := by decide
  have hcovers : signals.Covers passFacts caution := by
    intro l hl hplain value hvalue
    obtain ⟨value', hlisted, hvalue'⟩ := hknown l hl hplain
    cases hvalue.symm.trans hvalue'
    exact hlisted
  have hopposes :=
    (complement_opposes signals caution passFacts (by decide) (by decide) (by decide)
    hcovers).2
  exact ⟨by decide, by decide, by decide, hcovers, by decide, _, _, rfl, rfl, rfl,
    hopposes _ _ rfl rfl⟩

end Condition

end Consult
