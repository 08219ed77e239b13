import Consult.ValueRange
import Consult.Proofs.Provenance

/-!
# The known values are all there are

The complement of a condition takes for granted that a fact has no value but those that
the knowledge base mentions for it.  The range of a knowledge base lists exactly these,
variables aside.  And no other value is ever recorded: every record has a warrant, a
warrant names the rule, the option or the given fact that the value comes from, and each
of them mentions it.  What is left is the value of facts that are assumed undefined.

## Main results

* `mem_valueRange` — the range lists what the knowledge base mentions.
* `KnowledgeBase.Warranted.spans` — records with a warrant have listed values.
* `valueRange_spans_runs` — so whatever is recorded in a consultation is listed.
-/

namespace Consult

/-- The fact and the value are mentioned together: the fact is tested for the value,
or has it as a consequence of a rule or an option, or from the start. -/
inductive KnowledgeBase.Mentions (kb : KnowledgeBase) (fact value : String) : Prop where
  | tested {rule : Rule} (hrule : rule ∈ kb.rules)
      (hleaf : ⟨fact, value, .eq⟩ ∈ rule.condition.leaves) : Mentions kb fact value
  | inferred {rule : Rule} (hrule : rule ∈ kb.rules)
      (hvalue : rule.consequences.get? fact = some value) : Mentions kb fact value
  | answered {question : Question} {choice : Choice}
      (hquestion : question ∈ kb.questions)
      (hchoice : choice ∈ question.options)
      (hvalue : choice.consequences.get? fact = some value) : Mentions kb fact value
  | predefined (hvalue : kb.facts.get? fact = some value) : Mentions kb fact value

/-- Every recorded value is listed for its fact, unless it is `undefined`.
Variables do not count. -/
def ValueRange.Spans (range : ValueRange) (facts : Facts) : Prop :=
  ∀ fact record, facts.get? fact = some record → isVariable fact = false →
    isVariable record.value = false →
      record.value ∈ range.values fact ∨ record.value = undefinedValue

/-! ## What is listed -/

/-- A condition tests a fact for a value if that is one of its comparisons. -/
theorem Condition.mem_testedValues {c : Condition} {fact value : String} :
    (fact, value) ∈ c.testedValues ↔ ⟨fact, value, .eq⟩ ∈ c.leaves := by
  unfold testedValues
  rw [List.mem_map]
  constructor
  · rintro ⟨⟨name, value', relation⟩, hmem, heq⟩
    obtain ⟨hleaf, hrelation⟩ := List.mem_filter.1 hmem
    obtain rfl : relation = .eq := by simpa using hrelation
    obtain ⟨rfl, rfl⟩ := Prod.mk.inj heq
    exact hleaf
  · intro hleaf
    exact ⟨_, List.mem_filter.2 ⟨hleaf, by simp⟩, rfl⟩

namespace KnowledgeBase

variable {kb : KnowledgeBase} {fact value : String}

theorem mem_mentionedValues :
    (fact, value) ∈ kb.mentionedValues ↔ kb.Mentions fact value := by
  unfold mentionedValues
  simp only [List.mem_append, List.mem_flatMap]
  constructor
  · rintro ((⟨rule, hrule, htested | hvalue⟩ |
      ⟨question, hquestion, choice, hchoice, hvalue⟩) | hvalue)
    · exact .tested hrule (Condition.mem_testedValues.1 htested)
    · exact .inferred hrule (KeyMap.mem_entries_iff.1 hvalue)
    · exact .answered hquestion hchoice (KeyMap.mem_entries_iff.1 hvalue)
    · exact .predefined (KeyMap.mem_entries_iff.1 hvalue)
  · intro h
    cases h with
    | tested hrule hleaf =>
        exact .inl (.inl ⟨_, hrule, .inl (Condition.mem_testedValues.2 hleaf)⟩)
    | inferred hrule hvalue =>
        exact .inl (.inl ⟨_, hrule, .inr (KeyMap.mem_entries_iff.2 hvalue)⟩)
    | answered hquestion hchoice hvalue =>
        exact .inl (.inr ⟨_, hquestion, _, hchoice, KeyMap.mem_entries_iff.2 hvalue⟩)
    | predefined hvalue => exact .inr (KeyMap.mem_entries_iff.2 hvalue)

/-- The range lists what the knowledge base mentions, but no variables
and nothing for them. -/
theorem mem_valueRange : value ∈ kb.valueRange.values fact ↔
    isVariable fact = false ∧ isVariable value = false ∧ kb.Mentions fact value := by
  have hempty : value ∉ ValueRange.empty.values fact := by
    simp [ValueRange.values, ValueRange.empty]
  rw [valueRange, ValueRange.mem_values_addAll, mem_mentionedValues, and_assoc]
  exact or_iff_right hempty

/-! ## What is recorded -/

/-- A value that a warrant accounts for is mentioned, or it is `undefined`. -/
theorem Warrants.mentions {facts : Facts} {record : Record}
    (h : kb.Warrants facts fact record) :
    kb.Mentions fact record.value ∨ record.value = undefinedValue := by
  cases h with
  | inferred hrule hvalue _ _ _ => exact .inl (.inferred hrule hvalue)
  | answered hquestion hchoice hvalue => exact .inl (.answered hquestion hchoice hvalue)
  | builtIn _ => exact .inr rfl
  | predefined hvalue => exact .inl (.predefined hvalue)
  | assumed => exact .inr rfl

/-- Records with a warrant have listed values. -/
theorem Warranted.spans {facts : Facts} (h : kb.Warranted facts) :
    kb.valueRange.Spans facts := by
  intro fact record hget hfact hvalue
  rcases (h fact record hget).mentions with hmentions | hundefined
  · exact .inl (mem_valueRange.2 ⟨hfact, hvalue, hmentions⟩)
  · exact .inr hundefined

end KnowledgeBase

/-- For each fact the range of a knowledge base lists the values that the knowledge
base mentions, each of them once, and no variables.  It lists whatever a fact is
recorded with in all that a caller can reach, but for `undefined`, whether the
knowledge base has been checked or not and whatever limits a step is given. -/
theorem valueRange_spans_runs (kb : KnowledgeBase) :
    (∀ fact, (kb.valueRange.values fact).Nodup ∧
      ∀ value, value ∈ kb.valueRange.values fact ↔
        isVariable fact = false ∧ isVariable value = false ∧ kb.Mentions fact value) ∧
      ∀ p, kb.Attains p → kb.valueRange.Spans p.state.facts := by
  constructor
  · intro fact
    exact ⟨kb.valueRange.nodup_values fact, fun value => KnowledgeBase.mem_valueRange⟩
  · intro p hattains
    exact hattains.warranted.spans

/-- The outing, with a rule that asks for two conditions of one and is refused by
any check. -/
def kiteKnowledge : KnowledgeBase :=
  { outingEngine.knowledge with
    rules :=
      { condition := .atLeast 2 [.equals "wind" "strong"]
        consequences := KeyMap.empty.insert "kite" "two" } ::
      outingEngine.knowledge.rules }

/-- The outing with the kite when the question has been asked and answered. -/
def kiteInRain : Engine.Progress where
  state := (Engine.answer weatherPending 0
    (kiteKnowledge.step { maxSteps := 1 } kiteKnowledge.start).state).state
  asked := [weatherPending]

/-- The same when all is decided. -/
def kiteDecided : Engine.Progress where
  state := (kiteKnowledge.step { maxSteps := 9 } kiteInRain.state).state
  asked := [weatherPending]

theorem attains_kiteDecided : kiteKnowledge.Attains kiteDecided := by
  have hasked : kiteKnowledge.Attains
      ⟨(kiteKnowledge.step { maxSteps := 1 } kiteKnowledge.start).state,
        Engine.handedOut
          (kiteKnowledge.step { maxSteps := 1 } kiteKnowledge.start).result ++ []⟩ :=
    .single ⟨_, .step ⟨kiteKnowledge.start, []⟩⟩
  have hpending : (kiteKnowledge.step { maxSteps := 1 } kiteKnowledge.start).result =
      .ok (.pending weatherPending) := rfl
  rw [hpending] at hasked
  have hanswered : kiteKnowledge.Attains kiteInRain :=
    hasked.tail ⟨{}, .answer (List.mem_singleton.2 rfl) 0⟩
  exact hanswered.tail ⟨{ maxSteps := 9 }, .step kiteInRain⟩

/-- No check has been passed, and yet nothing but listed values is recorded: of the
umbrella just one is known, and of the weather there are two. -/
theorem kite_spanned :
    kiteKnowledge.check ≠ .ok () ∧
      kiteKnowledge.valueRange.values "umbrella" = ["yes"] ∧
      kiteKnowledge.valueRange.values "weather" = ["dry", "rain"] ∧
      kiteDecided.state.facts.lookup "weather" = .ok (some "rain") ∧
      kiteDecided.state.facts.lookup "umbrella" = .ok (some "yes") ∧
      kiteKnowledge.valueRange.Spans kiteDecided.state.facts := by
  have hspans := (valueRange_spans_runs kiteKnowledge).2 kiteDecided attains_kiteDecided
  exact ⟨by decide, by decide, by decide, rfl, rfl, hspans⟩

end Consult
