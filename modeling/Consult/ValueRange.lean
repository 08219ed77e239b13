import Consult.Knowledge
import Consult.Variable

/-!
# The values that facts are known to take

A `ValueRange` lists, for each fact, the values that a knowledge base mentions
for it, in order of their first appearance. It is only as complete as the
knowledge base is. Variables tell nothing about values and are not listed, and
no value is listed twice.

## Main results

* `isVariable_of_mem_values`, `nodup_values` — what the list of a fact looks like.
* `mem_values_addAll` — what it lists.
-/

namespace Consult

/-- For each fact its known values, without variables and without duplicates. -/
structure ValueRange where
  known : KeyMap (List String)
  literal : ∀ e ∈ known.entries, isVariable e.1 = false ∧ ∀ value ∈ e.2,
    isVariable value = false
  distinct : ∀ e ∈ known.entries, e.2.Nodup

namespace ValueRange

/-- The range that knows no values. -/
def empty : ValueRange := ⟨.empty, nofun, nofun⟩

/-- The known values of a fact, in order of their first appearance. -/
def values (range : ValueRange) (fact : String) : List String :=
  (range.known.get? fact).getD []

theorem values_eq_nil_or (range : ValueRange) (fact : String) :
    range.values fact = [] ∨ (fact, range.values fact) ∈ range.known.entries := by
  unfold values
  cases hget : range.known.get? fact with
  | none => exact .inl rfl
  | some values => exact .inr (KeyMap.mem_entries_iff.2 hget)

theorem isVariable_of_mem_values {range : ValueRange} {fact value : String}
    (h : value ∈ range.values fact) : isVariable value = false := by
  rcases range.values_eq_nil_or fact with hnil | hentry
  · simp [hnil] at h
  · exact (range.literal _ hentry).2 value h

theorem nodup_values (range : ValueRange) (fact : String) :
    (range.values fact).Nodup := by
  rcases range.values_eq_nil_or fact with hnil | hentry
  · simp [hnil]
  · exact range.distinct _ hentry

/-- The range with one more value for a fact. Variables tell nothing about values. -/
def add (range : ValueRange) (fact value : String) : ValueRange :=
  if hvariable : isVariable fact = false ∧ isVariable value = false then
    if hnew : value ∈ range.values fact then range
    else
      { known := range.known.insert fact (range.values fact ++ [value])
        literal := by
          intro e he
          rcases KeyMap.mem_insertEntry he with rfl | he
          · refine ⟨hvariable.1, fun other hother => ?_⟩
            rcases List.mem_append.1 hother with hold | hother
            · exact isVariable_of_mem_values hold
            · exact List.mem_singleton.1 hother ▸ hvariable.2
          · exact range.literal e he
        distinct := by
          intro e he
          rcases KeyMap.mem_insertEntry he with rfl | he
          · refine List.nodup_append.2
              ⟨range.nodup_values fact, by simp, fun old hold other hother => ?_⟩
            rintro rfl
            exact hnew (List.mem_singleton.1 hother ▸ hold)
          · exact range.distinct e he }
  else range

/-- The range with one more value for each of the facts, in order. -/
def addAll (range : ValueRange) (pairs : List (String × String)) : ValueRange :=
  pairs.foldl (fun range p => range.add p.1 p.2) range

theorem mem_values_add {range : ValueRange} {fact value fact' value' : String} :
    value' ∈ (range.add fact value).values fact' ↔ value' ∈ range.values fact' ∨
      (isVariable fact = false ∧ isVariable value = false) ∧ fact' = fact ∧
        value' = value := by
  unfold add
  by_cases hvariable : isVariable fact = false ∧ isVariable value = false
  · rw [dif_pos hvariable]
    by_cases hknown : value ∈ range.values fact
    · rw [dif_pos hknown]
      refine ⟨.inl, ?_⟩
      rintro (hold | ⟨-, rfl, rfl⟩)
      · exact hold
      · exact hknown
    · rw [dif_neg hknown]
      by_cases hfact : fact' = fact
      · subst hfact
        simp [values, hvariable]
      · simp [values, KeyMap.get?_insert_of_ne _ _ hfact, hfact]
  · rw [dif_neg hvariable]
    simp [hvariable]

/-- What has been added is listed, unless it is a variable or stands for one. -/
theorem mem_values_addAll {pairs : List (String × String)} {range : ValueRange}
    {fact value : String} :
    value ∈ (range.addAll pairs).values fact ↔
      value ∈ range.values fact ∨
        (isVariable fact = false ∧ isVariable value = false) ∧
          (fact, value) ∈ pairs := by
  induction pairs generalizing range with
  | nil => simp [addAll]
  | cons p pairs ih =>
    have hfold : range.addAll (p :: pairs) = (range.add p.1 p.2).addAll pairs := rfl
    rw [hfold, ih, mem_values_add, List.mem_cons]
    constructor
    · rintro ((hold | ⟨hvariable, rfl, rfl⟩) | ⟨hvariable, hmem⟩)
      · exact .inl hold
      · exact .inr ⟨hvariable, .inl rfl⟩
      · exact .inr ⟨hvariable, .inr hmem⟩
    · rintro (hold | ⟨hvariable, rfl | hmem⟩)
      · exact .inl (.inl hold)
      · exact .inl (.inr ⟨hvariable, rfl, rfl⟩)
      · exact .inr ⟨hvariable, hmem⟩

end ValueRange

namespace Condition

/-- The values that a condition tests facts for. -/
def testedValues (c : Condition) : List (String × String) :=
  (c.leaves.filter (·.relation = .eq)).map fun l => (l.name, l.value)

end Condition

namespace KnowledgeBase

/-- The facts and values that a knowledge base mentions together: in the conditions and
consequences of its rules, in the options of its questions and among its facts. -/
def mentionedValues (kb : KnowledgeBase) : List (String × String) :=
  kb.rules.flatMap (fun r => r.condition.testedValues ++ r.consequences.entries) ++
    kb.questions.flatMap (fun q => q.options.flatMap (·.consequences.entries)) ++
    kb.facts.entries

/-- The values that a knowledge base mentions. -/
def valueRange (kb : KnowledgeBase) : ValueRange :=
  ValueRange.addAll .empty kb.mentionedValues

end KnowledgeBase

end Consult
