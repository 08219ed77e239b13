import Consult.Proofs.Condition.Complement
import Consult.Proofs.Condition.NormalForm

/-!
# The complement of the complement

Taking the complement twice leads back to a condition without negations, up to what
simplifying removes.  A plain test for one of `m` known values turns into a choice
between the `m - 1` others, and each of these into a choice between all values but
itself.  What these have in common is the tested value alone; if there are just two
values, there is just one choice to begin with, between just one value.

## Main results

* `intersection?_map_oneOf` — what several choices between values of
  one fact have in common.
* `simplify_complement_complementOf` — a comparison comes back.
* `complement_twice` — so does every condition without negations.
-/

namespace Consult

namespace Condition

/-- Nothing in the condition is negated. -/
inductive NegationFree : Condition → Prop where
  | compare (c : Comparison) : NegationFree (.compare c)
  | atLeast {k : Nat} {cs : List Condition} (hcs : ∀ c ∈ cs, c.NegationFree) :
      NegationFree (.atLeast k cs)

end Condition

namespace ValueRange

/-- Wherever the range knows values of a fact that the condition plainly tests, the
tested value is among them. -/
def Lists (range : ValueRange) (c : Condition) : Prop :=
  ∀ l ∈ c.leaves, l.isPlain = true → l.value ∈ range.values l.name ∨
    range.values l.name = []

instance (range : ValueRange) (c : Condition) : Decidable (range.Lists c) :=
  inferInstanceAs (Decidable (∀ l ∈ c.leaves, _))

variable {range : ValueRange}

theorem lists_atLeast {k : Nat} {cs : List Condition} :
    range.Lists (.atLeast k cs) ↔ ∀ c ∈ cs, range.Lists c :=
  Condition.forall_mem_leaves_atLeast

theorem nodup_others (range : ValueRange) (name value : String) :
    (range.others name value).Nodup :=
  (range.nodup_values name).filter _

/-- If a fact has other known values, then just one of its values
differs from all of them. -/
theorem forall_others_iff {name value : String} (hlisted : value ∈ range.values name)
    (hne : range.others name value ≠ []) {common : String} :
    (∀ other ∈ range.others name value, common ∈ range.others name other) ↔
      common = value := by
  simp only [mem_others]
  constructor
  · intro h
    obtain ⟨other, hother⟩ := List.exists_mem_of_ne_nil _ hne
    have hcommon := (h other (mem_others.1 hother)).1
    by_contra hdiffers
    exact (h common ⟨hcommon, hdiffers⟩).2 rfl
  · rintro rfl other ⟨-, hdiffers⟩
    exact ⟨hlisted, hdiffers.symm⟩

end ValueRange

namespace Condition

variable {range : ValueRange} {name : String}

/-! ## Choices between values -/

theorem isJoined_oneOf (values : List String) :
    (oneOf name values).isJoined true = false := by
  rcases oneOf_cases name values with ⟨value, -, heq⟩ | ⟨hlength, heq⟩
  · rw [heq]
    rfl
  · rw [heq]
    simpa [isJoined, any, isAll] using hlength.symm

/-- A choice between values is simplified if there is just one. -/
theorem simplify_any_equals {values : List String} (hname : Text.Trimmed name)
    (hvalues : ∀ value ∈ values, Text.Trimmed value) (hnodup : values.Nodup) :
    (any (values.map (equals name))).simplify = oneOf name values := by
  have hnormal := normal_oneOf hname hvalues hnodup
  rcases oneOf_cases name values with ⟨value, rfl, -⟩ | ⟨-, heq⟩
  · rfl
  · rw [heq] at hnormal ⊢
    exact simplify_of_normal hnormal

/-- The values that all choices of a list offer. -/
theorem commonValues?_map_oneOf {values others : List String}
    {choices : String → List String}
    (h : ∀ other ∈ others, alternatives? (oneOf name (choices other)) =
      some (name, choices other)) :
    commonValues? name values (others.map fun other => oneOf name (choices other)) =
      some (values.filter fun value => ∀ other ∈ others, value ∈ choices other) := by
  induction others generalizing values with
  | nil => simp [commonValues?]
  | cons other others ih =>
      obtain ⟨halternatives, h⟩ := List.forall_mem_cons.1 h
      rw [List.map_cons, commonValues?, halternatives]
      simp only [if_true, ih h, List.filter_filter]
      congr 2
      ext value
      simp [Bool.and_comm]

private theorem eq_singleton {values : List String} {value : String}
    (hnodup : values.Nodup) (hmem : ∀ other, other ∈ values ↔ other = value) :
    values = [value] := by
  refine List.perm_singleton.1 ?_
  rw [List.perm_ext_iff_of_nodup hnodup (List.nodup_singleton value)]
  simpa using hmem

/-- Choices that have just one value in common come to the test for it. -/
theorem intersection?_map_oneOf {others : List String} {choices : String → List String}
    {value : String} (hne : others ≠ [])
    (h : ∀ other ∈ others, alternatives? (oneOf name (choices other)) =
      some (name, choices other))
    (hnodup : ∀ other ∈ others, (choices other).Nodup)
    (hcommon : ∀ value', (∀ other ∈ others, value' ∈ choices other) ↔ value' = value) :
    intersection? (others.map fun other => oneOf name (choices other)) =
      some (oneOf name [value]) := by
  obtain ⟨other, others, rfl⟩ := List.exists_cons_of_ne_nil hne
  obtain ⟨halternatives, h⟩ := List.forall_mem_cons.1 h
  have hsingle : (choices other).filter
      (fun value' => ∀ other ∈ others, value' ∈ choices other) =
      [value] := by
    refine eq_singleton ((hnodup other List.mem_cons_self).filter _) fun value' => ?_
    rw [← hcommon value', List.forall_mem_cons]
    simp
  rw [List.map_cons, intersection?, halternatives]
  simp only [commonValues?_map_oneOf h, hsingle]

/-! ## Comparisons -/

/-- The complement of a disjunction is the conjunction of the complements. -/
theorem complement_any {cs : List Condition} (hne : cs ≠ []) :
    (any cs).complement range = all (cs.map (complement range)) := by
  have hpos := List.length_pos_iff.2 hne
  rw [any, complement_atLeast Nat.one_ne_zero, all, List.length_map]
  congr 1
  omega

section Choices

/-! The choices that a plain test turns into, one for each of the
other values of the fact. -/

variable {value : String} (hname : isVariable name = false)
    (htrimmed : Text.Trimmed name)
  (hrange : range.Trimmed) (hlisted : value ∈ range.values name)
include hname hlisted

theorem plain_choice {other : String} (hother : other ∈ range.others name value) :
    PlainChoice name (range.others name other) :=
  plain_others hname (List.ne_nil_of_mem
    (ValueRange.mem_others.2 ⟨hlisted, (ValueRange.mem_others.1 hother).2.symm⟩))

include htrimmed hrange

theorem alternatives?_choice {other : String}
    (hother : other ∈ range.others name value) :
    alternatives? (oneOf name (range.others name other)) =
      some (name, range.others name other) :=
  alternatives?_oneOf (plain_choice hname hlisted hother) htrimmed
    (hrange.of_mem_others _ _)

theorem complement_equals_other {other : String}
    (hother : other ∈ range.others name value) :
    (equals name other).complement range =
      any ((range.others name other).map (equals name)) := by
  have hchoice := plain_choice hname hlisted hother
  have hliteral :=
    ValueRange.isVariable_of_mem_values (ValueRange.mem_others.1 hother).1
  have hplain : Comparison.isPlain ⟨name, other, .eq⟩ = true :=
    Comparison.isPlain_iff.2 ⟨rfl, hname, hliteral⟩
  rw [equals_eq_test htrimmed (hrange.of_mem_others _ _ other hother), test, complement]
  rcases complementOf_cases range ⟨name, other, .eq⟩ with
    ⟨-, -, heq⟩ | ⟨hnone | hnil, -⟩
  · exact heq
  · rw [hplain] at hnone
    cases hnone
  · exact absurd hnil hchoice.ne_nil

/-- There is no choice twice, as each leaves out another value. -/
theorem nodup_choices :
    ((range.others name value).map fun other =>
      oneOf name (range.others name other)).Nodup := by
  refine List.Nodup.map_on ?_ (range.nodup_others name value)
  intro other hother other' hother' heq
  have hsame : range.others name other = range.others name other' := by
    have h := alternatives?_choice hname htrimmed hrange hlisted hother
    rw [heq, alternatives?_choice hname htrimmed hrange hlisted hother'] at h
    simpa using h.symm
  by_contra hne
  have hmem : other ∈ range.others name other' :=
    ValueRange.mem_others.2 ⟨(ValueRange.mem_others.1 hother).1, hne⟩
  exact (ValueRange.mem_others.1 (hsame ▸ hmem)).2 rfl

/-- All choices together come to the test for the value that is in each of them. -/
theorem simplify_all_choices (hne : range.others name value ≠ []) :
    (all ((range.others name value).map fun other =>
      any ((range.others name other).map (equals name)))).simplify =
        oneOf name [value] := by
  have hsimple : ((range.others name value).map fun other =>
      any ((range.others name other).map (equals name))).map simplify =
        (range.others name value).map fun other =>
          oneOf name (range.others name other) := by
    rw [List.map_map]
    exact List.map_congr_left fun other _ =>
      simplify_any_equals htrimmed (hrange.of_mem_others _ _) (range.nodup_others _ _)
  have hcommon (common : String) :
      (∀ other ∈ range.others name value, common ∈ range.others name other) ↔
          common = value :=
    ValueRange.forall_others_iff hlisted hne
  have hinter := intersection?_map_oneOf hne
    (fun _ hother => alternatives?_choice hname htrimmed hrange hlisted hother)
    (fun other _ => range.nodup_others name other) hcommon
  by_cases hlength : (range.others name value).length = 1
  · -- With two known values there is one choice, and just the tested value to choose.
    obtain ⟨other, hothers⟩ := List.length_eq_one_iff.1 hlength
    simp only [hothers, List.forall_mem_singleton] at hcommon
    rw [hothers, List.map_singleton,
      ← eq_singleton (range.nodup_others name other) hcommon]
    exact simplify_any_equals htrimmed (hrange.of_mem_others _ _)
      (range.nodup_others _ _)
  · have hkinds : ∀ c ∈ (range.others name value).map fun other =>
        oneOf name (range.others name other), c.isJoined true = false :=
      List.forall_mem_map.2 fun _ _ => isJoined_oneOf _
    have hmerged :=
      merged_of_not_isJoined hkinds (nodup_choices hname htrimmed hrange hlisted)
    refine (simplify_joined true (by rwa [List.length_map])).trans ?_
    rw [hsimple, simplifyJoined_of_merged_eq hmerged (by rwa [List.length_map]), hinter]
    rfl

end Choices

/-- A comparison comes back if its complement is taken twice. -/
theorem simplify_complement_complementOf {c : Comparison} (htrimmed : c.Trimmed)
    (hrange : range.Trimmed) (hlists : range.Lists (compare c)) :
    ((complementOf range c).complement range).simplify = compare c := by
  rcases complementOf_cases range c with ⟨hplain, hne, heq⟩ | ⟨-, heq⟩
  · obtain ⟨-, hname, -⟩ := Comparison.isPlain_iff.1 hplain
    have hlisted : c.value ∈ range.values c.name := by
      refine (hlists c (List.mem_singleton_self c) hplain).resolve_right fun hnil =>
        hne ?_
      rw [ValueRange.others, hnil, List.filter_nil]
    have htwice : (any ((range.others c.name c.value).map (equals c.name))).complement
        range =
        all ((range.others c.name c.value).map fun other =>
          any ((range.others c.name other).map (equals c.name))) := by
      rw [complement_any (by simpa using hne), List.map_map]
      refine congrArg all (List.map_congr_left fun other hother => ?_)
      rw [Function.comp_apply,
        complement_equals_other hname htrimmed.1 hrange hlisted hother]
    rw [heq, htwice, simplify_all_choices hname htrimmed.1 hrange hlisted hne,
      compare_of_isPlain hplain]
    exact equals_eq_test htrimmed.1 htrimmed.2
  · rw [heq]
    rfl

/-! ## All conditions -/

/-- Taking the complement twice gives a group its threshold back. -/
theorem complement_complement_atLeast {k : Nat} {cs : List Condition} (hk : k ≠ 0)
    (hle : k ≤ cs.length) : ((atLeast k cs).complement range).complement range =
      atLeast k (cs.map fun c => (c.complement range).complement range) := by
  rw [complement_atLeast hk, complement_atLeast (by omega), List.map_map,
    List.length_map]
  congr 1
  omega

/-- In a checked condition without negations, taking the complement twice
changes nothing but what simplifying removes, if the range lists the values that
the condition tests for. -/
theorem complement_twice (range : ValueRange) (c : Condition) (hfree : c.NegationFree)
    (hcheck : c.check = .ok ()) (htrimmed : c.Trimmed) (hrange : range.Trimmed)
    (hlists : range.Lists c) :
    ((c.complement range).complement range).simplify = c.simplify := by
  rw [check_eq_ok] at hcheck
  induction hfree with
  | compare c =>
      rw [complement]
      exact simplify_complement_complementOf (trimmed_compare.1 htrimmed) hrange hlists
  | @atLeast k cs _ ih =>
      by_cases hk : k = 0
      · rw [hk]
        rfl
      · obtain ⟨hle, hcheck⟩ := eachGroup_atLeast.1 hcheck
        have htrimmed := trimmed_atLeast.1 htrimmed
        have hlists := ValueRange.lists_atLeast.1 hlists
        rw [complement_complement_atLeast hk hle, simplify_atLeast, simplify_atLeast,
          List.map_map]
        exact congrArg (simplifyGroup k) (List.map_congr_left fun c hc =>
          ih c hc (hcheck c hc) (htrimmed c hc) (hlists c hc))

/-- Three of these four: the light is red, the barrier is up or the horn is on, two
things of which none is needed, and the speed is above 50. -/
def departure : Condition :=
  .atLeast 3
    [.equals "light" "red", .any [.equals "barrier" "up", .equals "horn" "on"],
      .atLeast 0 [.equals "light" "green", .equals "barrier" "down"],
      .compare ⟨"speed", "50", .gt⟩]

/-- The complement of the complement has grown, but says the same in more words. -/
theorem departure_back :
    departure.NegationFree ∧ departure.check = .ok () ∧ departure.Trimmed ∧
      signals.Trimmed ∧ signals.Lists departure ∧
      (departure.complement signals).complement signals =
        .atLeast 3
          [.all [.any [.equals "light" "red", .equals "light" "green"],
              .any [.equals "light" "red", .equals "light" "yellow"]],
            .any [.all [.any [.equals "barrier" "up"]], .equals "horn" "on"],
            .atLeast 0 [.equals "light" "green", .equals "barrier" "down"],
            .compare ⟨"speed", "50", .gt⟩] ∧
      ((departure.complement signals).complement signals).simplify =
        departure.simplify := by
  have hfree : departure.NegationFree := by
    refine .atLeast ?_
    simp only [List.forall_mem_cons]
    refine ⟨.compare _, .atLeast ?_, .atLeast ?_, .compare _, nofun⟩
    · simp only [List.forall_mem_cons]
      exact ⟨.compare _, .compare _, nofun⟩
    · simp only [List.forall_mem_cons]
      exact ⟨.compare _, .compare _, nofun⟩
  have hcheck : departure.check = .ok () := by decide
  have htrimmed : departure.Trimmed := by decide
  have hrange : signals.Trimmed := by decide
  have hlists : signals.Lists departure := by decide
  have hback := complement_twice signals departure hfree hcheck htrimmed hrange hlists
  refine ⟨hfree, hcheck, htrimmed, hrange, hlists, ?_, hback⟩
  decide

end Condition

end Consult
