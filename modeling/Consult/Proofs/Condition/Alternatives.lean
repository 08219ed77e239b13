import Consult.Proofs.Condition.Judgement

/-!
# Alternatives for one fact

Plain tests on one fact, joined by "or", say that the fact has one of the tested
values.  How such a condition is judged depends on nothing but the value of the
fact: it is undecided as long as there is none, and has no other fault than the
value has.  So a conjunction of such conditions says that the fact has one of the
values that they have in common.

## Main results

* `Condition.alternatives?_eq_some_iff` — what conditions give
  alternatives for one fact.
* `Condition.judge_of_alternatives` — they are judged by the value of the fact.
* `Condition.judge_of_intersection` — a conjunction may be replaced by
  the common alternatives.
-/

namespace Consult

/-! ## No blanks around names and values -/

/-- Neither name nor value has blanks around it. -/
def Comparison.Trimmed (c : Comparison) : Prop :=
  Text.Trimmed c.name ∧ Text.Trimmed c.value

instance (c : Comparison) : Decidable c.Trimmed := inferInstanceAs (Decidable (_ ∧ _))

theorem Comparison.Trimmed.ofTrimmed_eq {c : Comparison} (h : c.Trimmed) :
    ofTrimmed c.name c.relation c.value = c := by
  rw [ofTrimmed, h.1, h.2]

namespace Condition

/-- No name or value in the condition has blanks around it. -/
def Trimmed (c : Condition) : Prop := ∀ l ∈ c.leaves, l.Trimmed

instance (c : Condition) : Decidable c.Trimmed :=
  inferInstanceAs (Decidable (∀ l ∈ c.leaves, _))

@[simp] theorem trimmed_compare {c : Comparison} : (compare c).Trimmed ↔ c.Trimmed := by
  simp [Trimmed]

@[simp] theorem trimmed_negation {c : Condition} : (negation c).Trimmed ↔ c.Trimmed :=
  Iff.rfl

@[simp] theorem trimmed_atLeast {k : Nat} {cs : List Condition} :
    (atLeast k cs).Trimmed ↔ ∀ c ∈ cs, c.Trimmed :=
  forall_mem_leaves_atLeast

/-! ## Plain tests -/

/-- The test whether the fact `name` has the value `value`, as they stand. -/
def test (name value : String) : Condition := .compare ⟨name, value, .eq⟩

theorem test_injective (name : String) : Function.Injective (test name) := by
  intro value value' h
  simpa [test] using h

theorem equals_eq_test {name value : String} (hname : Text.Trimmed name)
    (hvalue : Text.Trimmed value) : equals name value = test name value := by
  rw [equals, Comparison.ofTrimmed, hname, hvalue, test]

theorem plainTest?_eq_some_iff {c : Condition} {name value : String} :
    plainTest? c = some (name, value) ↔
      isVariable name = false ∧ isVariable value = false ∧ c = test name value := by
  constructor
  · intro h
    cases c with
    | compare c =>
        obtain ⟨name', value', relation⟩ := c
        obtain ⟨hplain, heq⟩ := Option.ite_none_right_eq_some.1 h
        cases heq
        simp only [Comparison.isPlain, Bool.and_eq_true, decide_eq_true_eq,
          Bool.not_eq_true'] at hplain
        obtain ⟨⟨rfl, hname⟩, hvalue⟩ := hplain
        exact ⟨hname, hvalue, rfl⟩
    | negation c => cases h
    | atLeast k cs => cases h
  · rintro ⟨hname, hvalue, rfl⟩
    simp [plainTest?, test, Comparison.isPlain, hname, hvalue]

theorem mapM_plainTest?_eq_some_iff {cs : List Condition}
    {tests : List (String × String)} :
    cs.mapM plainTest? = some tests ↔
      (∀ t ∈ tests, isVariable t.1 = false ∧ isVariable t.2 = false) ∧
        cs = tests.map fun t => test t.1 t.2 := by
  induction cs generalizing tests with
  | nil => cases tests <;> simp
  | cons c cs ih =>
      simp only [List.mapM_cons, Option.bind_eq_bind, Option.bind_eq_some_iff, ih,
        Option.pure_def, Option.some.injEq]
      constructor
      · rintro ⟨⟨name, value⟩, htest, tests, ⟨hplain, rfl⟩, rfl⟩
        obtain ⟨hname, hvalue, rfl⟩ := plainTest?_eq_some_iff.1 htest
        exact ⟨List.forall_mem_cons.2 ⟨⟨hname, hvalue⟩, hplain⟩, rfl⟩
      · rintro ⟨hplain, hcs⟩
        cases tests with
        | nil => cases hcs
        | cons t tests =>
            obtain ⟨rfl, rfl⟩ := List.cons.inj hcs
            obtain ⟨⟨hname, hvalue⟩, hplain⟩ := List.forall_mem_cons.1 hplain
            exact ⟨t, plainTest?_eq_some_iff.2 ⟨hname, hvalue, rfl⟩, tests,
              ⟨hplain, rfl⟩, rfl⟩

/-! ## Conditions that give alternatives -/

/-- A fact and some values, none of them a variable. -/
structure PlainChoice (name : String) (values : List String) : Prop where
  fact : isVariable name = false
  literal : ∀ value ∈ values, isVariable value = false
  ne_nil : values ≠ []

/-- Plain tests on one fact give alternatives, a single one also by itself. -/
theorem alternatives?_eq_some_iff {c : Condition} {name : String}
    {values : List String} :
    alternatives? c = some (name, values) ↔ PlainChoice name values ∧
      (c = any (values.map (test name)) ∨ ∃ value, values = [value] ∧
        c = test name value) := by
  constructor
  · intro h
    cases c with
    | compare c =>
        obtain ⟨⟨name', value⟩, htest, heq⟩ := Option.map_eq_some_iff.1 h
        cases heq
        obtain ⟨hname, hvalue, hc⟩ := plainTest?_eq_some_iff.1 htest
        exact ⟨⟨hname, List.forall_mem_singleton.2 hvalue, List.cons_ne_nil _ _⟩,
          .inr ⟨value, rfl, hc⟩⟩
    | negation c => cases h
    | atLeast k cs =>
        obtain ⟨rfl, htests⟩ := Option.ite_none_right_eq_some.1 h
        split at htests
        · next name' value tests hcs =>
          obtain ⟨hsame, heq⟩ := Option.ite_none_right_eq_some.1 htests
          cases heq
          obtain ⟨hplain, rfl⟩ := mapM_plainTest?_eq_some_iff.1 hcs
          obtain ⟨⟨hname, hvalue⟩, hplain⟩ := List.forall_mem_cons.1 hplain
          have hsame : ∀ t ∈ tests, t.1 = name := by simpa using hsame
          refine ⟨⟨hname, ?_, List.cons_ne_nil _ _⟩, .inl ?_⟩
          · rw [List.forall_mem_cons, List.forall_mem_map]
            exact ⟨hvalue, fun t ht => (hplain t ht).2⟩
          · rw [any, List.map_cons, List.map_cons, List.map_map]
            congr 2
            exact List.map_congr_left fun t ht => by rw [hsame t ht, Function.comp]
        · cases htests
  · rintro ⟨hplain, rfl | ⟨value, rfl, rfl⟩⟩
    · obtain ⟨value, values, rfl⟩ := List.exists_cons_of_ne_nil hplain.ne_nil
      have htests : ((value :: values).map (test name)).mapM plainTest? =
          some ((value :: values).map fun v => (name, v)) := by
        rw [mapM_plainTest?_eq_some_iff, List.forall_mem_map, List.map_map]
        exact ⟨fun v hv => ⟨hplain.fact, hplain.literal v hv⟩, rfl⟩
      rw [any, alternatives?, if_pos rfl, htests]
      simp [Function.comp_def]
    · have htest := plainTest?_eq_some_iff.2
        ⟨hplain.fact, hplain.literal value List.mem_cons_self, rfl⟩
      exact Option.map_eq_some_iff.2 ⟨_, htest, rfl⟩

theorem PlainChoice.sublist {name : String} {values values' : List String}
    (h : PlainChoice name values) (hsublist : values'.Sublist values)
    (hne : values' ≠ []) : PlainChoice name values' :=
  ⟨h.fact, fun value hvalue => h.literal value (hsublist.subset hvalue), hne⟩

/-- The comparisons in alternatives are the tests for the values. -/
theorem mem_leaves_of_alternatives {c : Condition} {name : String}
    {values : List String} (h : alternatives? c = some (name, values))
    {l : Comparison} :
    l ∈ c.leaves ↔ ∃ value ∈ values, l = ⟨name, value, .eq⟩ := by
  obtain ⟨-, rfl | ⟨value, rfl, rfl⟩⟩ := alternatives?_eq_some_iff.1 h
  · simp [any, test]
  · simp [test]

theorem trimmed_of_alternatives {c : Condition} {name : String} {values : List String}
    (h : alternatives? c = some (name, values)) (htrimmed : c.Trimmed) :
    Text.Trimmed name ∧ ∀ value ∈ values, Text.Trimmed value := by
  have htest : ∀ value ∈ values, Comparison.Trimmed ⟨name, value, .eq⟩ :=
    fun value hvalue =>
    htrimmed _ ((mem_leaves_of_alternatives h).2 ⟨value, hvalue, rfl⟩)
  obtain ⟨value, hvalue⟩ :=
    List.exists_mem_of_ne_nil _ (alternatives?_eq_some_iff.1 h).1.ne_nil
  exact ⟨(htest value hvalue).1, fun value hvalue => (htest value hvalue).2⟩

/-- One of several values is chosen by a disjunction, a single one by its test. -/
theorem oneOf_cases (name : String) (values : List String) :
    (∃ value, values = [value] ∧ oneOf name values = equals name value) ∨
      values.length ≠ 1 ∧ oneOf name values = any (values.map (equals name)) := by
  unfold oneOf
  split
  · next value => exact .inl ⟨value, rfl, rfl⟩
  · next hsingle =>
    refine .inr ⟨?_, rfl⟩
    rw [Ne, List.length_eq_one_iff]
    rintro ⟨value, rfl⟩
    exact hsingle value rfl

/-- The comparisons in such a choice are the tests for the values, without blanks. -/
theorem mem_leaves_oneOf {name : String} {values : List String} {l : Comparison} :
    l ∈ (oneOf name values).leaves ↔ ∃ value ∈ values,
      l = .ofTrimmed name .eq value := by
  rcases oneOf_cases name values with ⟨value, rfl, heq⟩ | ⟨-, heq⟩
  · simp [heq, equals]
  · simp [heq, any, equals]

theorem map_equals {name : String} {values : List String} (hname : Text.Trimmed name)
    (hvalues : ∀ value ∈ values, Text.Trimmed value) :
    values.map (equals name) = values.map (test name) :=
  List.map_congr_left fun value hvalue => equals_eq_test hname (hvalues value hvalue)

theorem alternatives?_oneOf {name : String} {values : List String}
    (hplain : PlainChoice name values) (hname : Text.Trimmed name)
    (hvalues : ∀ value ∈ values, Text.Trimmed value) :
    alternatives? (oneOf name values) = some (name, values) := by
  refine alternatives?_eq_some_iff.2 ⟨hplain, ?_⟩
  rcases oneOf_cases name values with ⟨value, rfl, heq⟩ | ⟨-, heq⟩
  · exact .inr ⟨value, rfl,
      heq.trans (equals_eq_test hname (hvalues value List.mem_cons_self))⟩
  · exact .inl (heq.trans (congrArg any (map_equals hname hvalues)))

end Condition

/-! ## Judging alternatives -/

/-- The verdict on "it has one of these values", given the value of a fact if it is
known. -/
def Verdict.ofValue (values : List String) : Option String → Verdict
  | none => .maybe
  | some value => if value ∈ values then .yes else .no

namespace Verdict

theorem either_ofValue (value : String) (values : List String) (known : Option String) :
    (ofValue [value] known).either (ofValue values known) =
      ofValue (value :: values) known := by
  cases known with
  | none => rfl
  | some actual => by_cases h : actual = value <;> simp [ofValue, h, either]

theorem both_ofValue (values others : List String) (known : Option String) :
    (ofValue values known).both (ofValue others known) =
      ofValue (values.filter (· ∈ others)) known := by
  cases known with
  | none => rfl
  | some actual =>
      by_cases hvalue : actual ∈ values <;> by_cases hother : actual ∈ others <;>
        simp [ofValue, hvalue, hother, both]

end Verdict

namespace Condition

variable {facts : Facts} {name : String}

theorem judge_test {value : String} (hname : isVariable name = false)
    (hvalue : isVariable value = false) :
    (test name value).judge facts = (facts.value name).map (.ofValue [value]) := by
  simp only [judge, test, evaluate, Comparison.evaluate, Facts.value, hname,
    facts.resolve_of_not_isVariable hname, facts.resolve_of_not_isVariable hvalue, bind,
    Except.bind, pure, Except.pure]
  cases hget : facts.get? name with
  | none => rfl
  | some record =>
      cases hactual : facts.resolve record.value with
      | error fault => simp [hactual, Except.map]
      | ok r =>
          cases r with
          | unknown fact => simp [hactual, Except.map, Verdict.ofValue, Finding.missing]
          | literal actual =>
              simp [hactual, Except.map, Verdict.ofValue, Relation.holds]

/-- Alternatives for one fact are judged by its value. -/
theorem judge_any_test {values : List String} (h : PlainChoice name values) :
    (any (values.map (test name))).judge facts =
      (facts.value name).map (.ofValue values) := by
  obtain ⟨hname, hvalues, hne⟩ := h
  show (joined false _).judge facts = _
  rw [judge_joined, List.map_map]
  induction values with
  | nil => exact absurd rfl hne
  | cons value values ih =>
      obtain ⟨hvalue, hvalues⟩ := List.forall_mem_cons.1 hvalues
      rw [List.map_cons, Judgement.join_cons, Function.comp_apply,
        judge_test hname hvalue]
      by_cases hlast : values = []
      · subst hlast
        exact Judgement.combine_vacuous false _
      · rw [ih hvalues hlast, Judgement.combine_map]
        exact congrArg (Except.map · _) (funext (Verdict.either_ofValue value values))

theorem judge_of_alternatives {c : Condition} {values : List String}
    (h : alternatives? c = some (name, values)) :
    c.judge facts = (facts.value name).map (.ofValue values) := by
  obtain ⟨hplain, rfl | ⟨value, rfl, rfl⟩⟩ := alternatives?_eq_some_iff.1 h
  · exact judge_any_test hplain
  · exact judge_test hplain.fact (hplain.literal value List.mem_cons_self)

/-! ## Common alternatives -/

/-- Each further condition leaves of the values those that it offers as well. -/
theorem judge_of_commonValues {values common : List String} {cs : List Condition}
    (h : commonValues? name values cs = some common) :
    Judgement.combine true ((facts.value name).map (.ofValue values))
      (Judgement.join true (cs.map (judge facts))) =
        (facts.value name).map (.ofValue common) := by
  induction cs generalizing values with
  | nil =>
      cases h
      exact Judgement.combine_vacuous true _
  | cons c cs ih =>
      rw [commonValues?] at h
      split at h
      · next other others hc =>
        obtain ⟨rfl, hrest⟩ := Option.ite_none_right_eq_some.1 h
        have hboth : Judgement.combine true ((facts.value other).map (.ofValue values))
            (c.judge facts) = (facts.value other).map
                (.ofValue (values.filter (· ∈ others))) := by
          rw [judge_of_alternatives hc, Judgement.combine_map]
          exact congrArg (Except.map · _) (funext (Verdict.both_ofValue values others))
        rw [List.map_cons, Judgement.join_cons, ← Judgement.combine_assoc,
          hboth, ih hrest]
      · cases h

theorem sublist_of_commonValues {values common : List String} {cs : List Condition}
    (h : commonValues? name values cs = some common) : common.Sublist values := by
  induction cs generalizing values with
  | nil =>
      cases h
      exact List.Sublist.refl _
  | cons c cs ih =>
      rw [commonValues?] at h
      split at h
      · obtain ⟨-, hrest⟩ := Option.ite_none_right_eq_some.1 h
        exact (ih hrest).trans List.filter_sublist
      · cases h

/-- A conjunction comes to values that its members have in common, if there are any. -/
theorem intersection?_eq_some {cs : List Condition} {c : Condition}
    (h : intersection? cs = some c) :
    ∃ first rest name values common, cs = first :: rest ∧
      alternatives? first = some (name, values) ∧
      commonValues? name values rest = some common ∧
      common ≠ [] ∧ c = oneOf name common := by
  cases cs with
  | nil => cases h
  | cons first rest =>
      rw [intersection?] at h
      split at h
      · next name values hfirst =>
        split at h
        · next value more hcommon =>
          cases h
          exact ⟨first, rest, name, values, _, rfl, hfirst, hcommon,
            List.cons_ne_nil _ _, rfl⟩
        · cases h
      · cases h

/-- What a conjunction comes to gives alternatives, which are among
those of its first member. -/
theorem alternatives?_of_intersection {first : Condition} {rest : List Condition}
    {c : Condition} (htrimmed : first.Trimmed)
    (h : intersection? (first :: rest) = some c) :
    ∃ name values common, alternatives? first = some (name, values) ∧
      commonValues? name values rest = some common ∧ common.Sublist values ∧
      alternatives? c = some (name, common) := by
  obtain ⟨_, _, name, values, common, heq, hfirst, hcommon, hne, rfl⟩ :=
    intersection?_eq_some h
  obtain ⟨rfl, rfl⟩ := List.cons.inj heq
  have hsublist := sublist_of_commonValues hcommon
  have hplain := (alternatives?_eq_some_iff.1 hfirst).1.sublist hsublist hne
  obtain ⟨hname, hvalues⟩ := trimmed_of_alternatives hfirst htrimmed
  exact ⟨name, values, common, hfirst, hcommon, hsublist,
    alternatives?_oneOf hplain hname fun value hvalue =>
      hvalues value (hsublist.subset hvalue)⟩

/-- A conjunction may be replaced by the alternatives that its members have in
common. -/
theorem judge_of_intersection {cs : List Condition} {c : Condition}
    (htrimmed : ∀ d ∈ cs, d.Trimmed) (h : intersection? cs = some c) :
    c.judge facts = Judgement.join true (cs.map (judge facts)) := by
  cases cs with
  | nil => cases h
  | cons first rest =>
      obtain ⟨name, values, common, hfirst, hcommon, -, hc⟩ :=
        alternatives?_of_intersection (htrimmed first List.mem_cons_self) h
      rw [judge_of_alternatives hc, List.map_cons, Judgement.join_cons,
        judge_of_alternatives hfirst, judge_of_commonValues hcommon]

end Condition

end Consult
