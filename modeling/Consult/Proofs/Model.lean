import Consult.Proofs.Persistence
import Consult.Proofs.Waiting
import Mathlib.Data.Finset.Card
import Mathlib.Data.List.Find
import Mathlib.Logic.Relation

/-!
# The model of a knowledge base

If no fact depends on itself, a knowledge base says of every fact what it is: its
given value, else the value from a rule that holds, else `undefined`.  `model` is
defined by recursion on what facts depend on, and nothing in it refers to the
agenda or to an order of questions.

A consultation knows some of the values only.  What it finds out from them by
evaluating a condition is right in the model, if texts stand for themselves.

## Main results

* `Acyclic.wellFounded` — recursion on what facts depend on ends.
* `describes_model`, `Describes.eq_model` — the model is the only assignment that the
  knowledge base describes.
* `Condition.holdsIn_iff` — a verdict on partial knowledge is right in the model.
-/

namespace Consult

/-! ## What facts depend on -/

namespace KnowledgeBase

/-- `kb.Feeds name fact`: the fact depends on the name, as some rule for the fact
has a condition on it. -/
def Feeds (kb : KnowledgeBase) (name fact : String) : Prop :=
  ∃ rule ∈ kb.rules, rule.infers fact = true ∧ ∃ leaf ∈ rule.condition.leaves,
    leaf.name = name

instance (kb : KnowledgeBase) (name fact : String) :
    Decidable (kb.Feeds name fact) := by
  unfold Feeds
  infer_instance

/-- No fact depends on itself, not even through others. -/
def Acyclic (kb : KnowledgeBase) : Prop := ∀ fact, ¬Relation.TransGen kb.Feeds fact fact

/-- The names that conditions are about. -/
def leafNames (kb : KnowledgeBase) : Finset String :=
  (kb.rules.flatMap fun rule => rule.condition.leaves.map (·.name)).toFinset

variable {kb : KnowledgeBase}

theorem mem_leafNames {name : String} : name ∈ kb.leafNames ↔
    ∃ rule ∈ kb.rules, ∃ leaf ∈ rule.condition.leaves, leaf.name = name := by
  simp only [leafNames, List.mem_toFinset, List.mem_flatMap, List.mem_map]

theorem Feeds.mem_leafNames {name fact : String} (h : kb.Feeds name fact) :
    name ∈ kb.leafNames := by
  obtain ⟨rule, hrule, -, hleaf⟩ := h
  exact KnowledgeBase.mem_leafNames.2 ⟨rule, hrule, hleaf⟩

theorem feeds_of_mem {rule : Rule} {fact : String} {leaf : Comparison}
    (hrule : rule ∈ kb.rulesInferring fact) (hleaf : leaf ∈ rule.condition.leaves) :
    kb.Feeds leaf.name fact := by
  obtain ⟨hmem, hinfers⟩ := List.mem_filter.1 hrule
  exact ⟨rule, hmem, hinfers, leaf, hleaf, rfl⟩

/-- If every fact ranks above those that it depends on, none depends on itself. -/
theorem acyclic_of_rank (rank : String → Nat)
    (h : ∀ name fact, kb.Feeds name fact → rank name < rank fact) : kb.Acyclic := by
  intro fact hcycle
  have hlt {a b : String} (hab : Relation.TransGen kb.Feeds a b) : rank a < rank b := by
    induction hab with
    | single hfeeds => exact h _ _ hfeeds
    | tail _ hfeeds ih => exact ih.trans (h _ _ hfeeds)
  exact Nat.lt_irrefl _ (hlt hcycle)

open Classical in
/-- Recursion on what facts depend on ends. -/
theorem Acyclic.wellFounded (h : kb.Acyclic) : WellFounded kb.Feeds := by
  -- A fact has more names below it than any of these names.
  let below (fact : String) : Finset String :=
    kb.leafNames.filter fun name => Relation.TransGen kb.Feeds name fact
  refine Subrelation.wf (r := InvImage (· < ·) fun fact => (below fact).card) ?_
    (InvImage.wf _ Nat.lt_wfRel.wf)
  intro name fact hfeeds
  refine Finset.card_lt_card ((Finset.ssubset_iff_of_subset ?_).2 ⟨name, ?_, ?_⟩)
  · intro other hother
    obtain ⟨hleaf, hother⟩ := Finset.mem_filter.1 hother
    exact Finset.mem_filter.2 ⟨hleaf, hother.tail hfeeds⟩
  · exact Finset.mem_filter.2 ⟨hfeeds.mem_leafNames, .single hfeeds⟩
  · intro hself
    exact h name (Finset.mem_filter.1 hself).2

end KnowledgeBase

/-! ## Supposing values -/

namespace Facts

/-- The facts, and those listed that are not among them with the values supposed. -/
def supposing (facts : Facts) (values : String → String) (names : List String) :
    Facts :=
  (names.map fun name => (name, values name)).foldl
    (fun facts e => facts.insertIfNew e.1 ⟨e.2, .given "Supposed"⟩) facts

private theorem lookup_map_mk (values : String → String) (fact : String)
    (names : List String) :
    KeyMap.lookup fact (names.map fun name => (name, values name)) =
      if fact ∈ names then some (values fact) else none := by
  induction names with
  | nil => rfl
  | cons name names ih =>
      by_cases hfact : fact = name
      · simp [KeyMap.lookup, hfact]
      · simp [KeyMap.lookup, hfact, ih]

theorem get?_supposing (facts : Facts) (values : String → String) (names : List String)
    (fact : String) : (facts.supposing values names).get? fact =
      (facts.get? fact).or
        (if fact ∈ names then some ⟨values fact, .given "Supposed"⟩ else none) := by
  rw [supposing, get?_foldl_insertIfNew_eq, lookup_map_mk]
  by_cases hfact : fact ∈ names
  · simp [hfact]
  · simp [hfact]

/-- The facts listed, with the values supposed. -/
def supposed (values : String → String) (names : List String) : Facts :=
  supposing KeyMap.empty values names

theorem get?_supposed (values : String → String) (names : List String) (fact : String) :
    (supposed values names).get? fact =
      if fact ∈ names then some ⟨values fact, .given "Supposed"⟩ else none := by
  rw [supposed, get?_supposing, KeyMap.get?_empty, Option.none_or]

end Facts

/-- The condition holds where every fact that it is about has the value supposed. -/
def Condition.HoldsIn (values : String → String) (c : Condition) : Prop :=
  c.Holds (Facts.supposed values c.facts)

instance (values : String → String) (c : Condition) : Decidable (c.HoldsIn values) := by
  unfold Condition.HoldsIn
  infer_instance

theorem Condition.mem_facts {c : Condition} {name : String} :
    name ∈ c.facts ↔ ∃ leaf ∈ c.leaves, leaf.name = name := by
  rw [facts, List.mem_eraseDups, List.mem_map]

theorem Condition.holdsIn_congr {values values' : String → String} {c : Condition}
    (h : ∀ leaf ∈ c.leaves, values leaf.name = values' leaf.name) :
    c.HoldsIn values ↔ c.HoldsIn values' := by
  have hsame : Facts.supposed values c.facts = Facts.supposed values' c.facts := by
    apply KeyMap.ext_get?
    intro fact
    rw [Facts.get?_supposed, Facts.get?_supposed]
    by_cases hmem : fact ∈ c.facts
    · obtain ⟨leaf, hleaf, rfl⟩ := mem_facts.1 hmem
      simp [h leaf hleaf]
    · simp [hmem]
  rw [HoldsIn, HoldsIn, hsame]

/-! ## Partial knowledge -/

/-- No name and no value in the condition is a variable. -/
def Condition.Plain (c : Condition) : Prop :=
  ∀ leaf ∈ c.leaves, isVariable leaf.name = false ∧ isVariable leaf.value = false

instance (c : Condition) : Decidable c.Plain := by
  unfold Condition.Plain
  infer_instance

/-- No recorded value is a variable. -/
def Facts.Literal (facts : Facts) : Prop :=
  ∀ fact record, facts.get? fact = some record → isVariable record.value = false

/-- Every recorded value is the one supposed. -/
def Facts.Agrees (facts : Facts) (values : String → String) : Prop :=
  ∀ fact record, facts.get? fact = some record → record.value = values fact

theorem Facts.literal_initial : initial.Literal := by
  intro fact record hget
  unfold initial at hget
  rw [KeyMap.get?_insert] at hget
  split at hget
  · cases hget
    exact isVariable_undefinedValue
  · simp at hget

/-- Consequences that are no variables may be recorded. -/
theorem Facts.Literal.record {facts : Facts} (h : facts.Literal)
    {consequences : Consequences} (reason : Reason)
    (hconsequences : ∀ e ∈ consequences.entries, isVariable e.2 = false) :
    (facts.record consequences reason).Literal := by
  intro fact record hget
  rcases of_get?_record hget with hold | ⟨-, hvalue, -⟩
  · exact h fact record hold
  · exact hconsequences (fact, record.value) (KeyMap.mem_entries_iff.2 hvalue)

theorem Facts.Agrees.literal {facts : Facts} {values : String → String}
    (h : facts.Agrees values) (hvalues : ∀ fact, isVariable (values fact) = false) :
    facts.Literal := by
  intro fact record hget
  rw [h fact record hget]
  exact hvalues fact

theorem Facts.Agrees.supposing {facts : Facts} {values : String → String}
    (h : facts.Agrees values) (names : List String) :
    (facts.supposing values names).Agrees values := by
  intro fact record hget
  rw [get?_supposing] at hget
  cases hold : facts.get? fact with
  | some old =>
      rw [hold, Option.some_or, Option.some.injEq] at hget
      exact hget ▸ h fact old hold
  | none =>
      rw [hold, Option.none_or] at hget
      split at hget
      · cases hget
        rfl
      · cases hget

theorem Facts.agrees_supposed (values : String → String) (names : List String) :
    (supposed values names).Agrees values := by
  have hempty : Facts.Agrees KeyMap.empty values := by
    intro fact record hget
    simp at hget
  exact hempty.supposing names

theorem Facts.keeps_supposing (facts : Facts) (values : String → String)
    (names : List String) :
    (facts.supposing values names).Keeps facts := by
  intro fact record hget
  rw [get?_supposing, hget, Option.some_or]

/-- Values that are no variables may be supposed. -/
theorem Facts.Literal.supposing {facts : Facts} (h : facts.Literal)
    {values : String → String} (hvalues : ∀ fact, isVariable (values fact) = false)
    (names : List String) :
    (facts.supposing values names).Literal := by
  intro fact record hget
  rw [get?_supposing] at hget
  cases hold : facts.get? fact with
  | some old =>
      rw [hold, Option.some_or, Option.some.injEq] at hget
      exact hget ▸ h fact old hold
  | none =>
      rw [hold, Option.none_or] at hget
      split at hget
      · cases hget
        exact hvalues fact
      · cases hget

/-- What is supposed is a part of what is supposed on top of other
facts, if these agree. -/
theorem Facts.Agrees.extends_supposed {facts : Facts} {values : String → String}
    (h : facts.Agrees values) (names : List String) :
    (facts.supposing values names).Extends (supposed values names) := by
  intro fact record hget
  have hvalue := agrees_supposed values names fact record hget
  rw [get?_supposed] at hget
  rw [get?_supposing]
  cases hold : facts.get? fact with
  | some old => exact ⟨old, by rw [Option.some_or], (h fact old hold).trans hvalue.symm⟩
  | none => exact ⟨record, by rw [Option.none_or, hget], rfl⟩

namespace Condition

variable {facts : Facts} {c : Condition}

/-- Where texts stand for themselves, evaluation cannot fail. -/
theorem exists_evaluate (hfacts : facts.Literal) (c : Condition) (hc : c.Plain) :
    ∃ f, c.evaluate facts = .ok f := by
  induction c using Condition.induction with
  | compare c =>
      obtain ⟨hname, hvalue⟩ := hc c (by simp)
      have hname := facts.resolve_of_not_isVariable hname
      cases hget : facts.get? c.name with
      | none => exact ⟨_, evaluate_compare_eq_ok_iff.2 (.fact hname hget)⟩
      | some record =>
          have hrecord := facts.resolve_of_not_isVariable (hfacts c.name record hget)
          have hvalue := facts.resolve_of_not_isVariable hvalue
          exact ⟨_, evaluate_compare_eq_ok_iff.2 (.settled hname hget hrecord hvalue)⟩
  | negation c ih =>
      obtain ⟨part, hpart⟩ := ih hc
      exact ⟨_, evaluate_negation_eq_ok_iff.2 ⟨part, hpart, rfl⟩⟩
  | atLeast k cs ih =>
      have hmembers : ∀ c ∈ cs, ∃ f, c.evaluate facts = .ok f := fun c hmem =>
        ih c hmem fun leaf hleaf => hc leaf (mem_leaves_atLeast.2 ⟨c, hmem, hleaf⟩)
      obtain ⟨parts, hparts⟩ : ∃ parts,
          List.Forall₂ (fun c f => evaluate facts c = .ok f) cs parts := by
        clear ih hc
        induction cs with
        | nil => exact ⟨[], .nil⟩
        | cons c cs ih =>
            obtain ⟨part, hpart⟩ := hmembers c List.mem_cons_self
            obtain ⟨parts, hparts⟩ :=
              ih fun d hd => hmembers d (List.mem_cons_of_mem _ hd)
            exact ⟨part :: parts, .cons hpart hparts⟩
      exact ⟨_, evaluate_atLeast_eq_ok_iff.2 ⟨parts, hparts, rfl⟩⟩

/-- Where texts stand for themselves, the facts awaited are among those that the
condition is about. -/
theorem mem_facts_of_awaits (hfacts : facts.Literal) (hc : c.Plain) {f : Finding}
    {fact : String} (hf : c.evaluate facts = .ok f) (hawaits : f.Awaits fact) :
    fact ∈ c.facts := by
  obtain ⟨leaf, hleaf, hmissing⟩ := c.exists_leaf_of_awaits hf hawaits
  obtain ⟨hname, hvalue⟩ := hc leaf hleaf
  have hname := facts.resolve_of_not_isVariable hname
  have hvalue := facts.resolve_of_not_isVariable hvalue
  refine mem_facts.2 ⟨leaf, hleaf, ?_⟩
  have hfound := Comparison.evaluate_eq_ok_iff.1 hmissing
  generalize hm : Finding.missing fact = m at hfound
  cases hfound with
  | name hunknown => simp [hname] at hunknown
  | fact hresolve _ =>
      cases hm
      rw [hname] at hresolve
      cases hresolve
      rfl
  | value _ hget hunknown =>
      rw [facts.resolve_of_not_isVariable (hfacts _ _ hget)] at hunknown
      cases hunknown
  | expected _ _ _ hunknown => simp [hvalue] at hunknown
  | settled _ _ _ _ => simp [Finding.missing] at hm

/-- A verdict other than "maybe" that is found on partial knowledge is right. -/
theorem holdsIn_iff {values : String → String} (hagrees : facts.Agrees values)
    (hvalues : ∀ fact, isVariable (values fact) = false) (hc : c.Plain) {f : Finding}
    (hf : c.evaluate facts = .ok f) (hsettled : f.verdict ≠ .maybe) :
    c.HoldsIn values ↔ f.verdict = .yes := by
  have hwhole := Facts.agrees_supposed values c.facts
  obtain ⟨whole, hwholeFinding⟩ := exists_evaluate (hwhole.literal hvalues) c hc
  -- Nothing that the condition is about is missing when all of it is supposed.
  have hwholeSettled : whole.verdict ≠ .maybe := by
    intro hmaybe
    obtain ⟨fact, hawaits⟩ := c.exists_awaits hwholeFinding hmaybe
    have hmem := mem_facts_of_awaits (hwhole.literal hvalues) hc hwholeFinding hawaits
    have hnone := c.get?_of_awaits hwholeFinding hawaits
    simp [Facts.get?_supposed, hmem] at hnone
  -- The verdicts are compared where both are known.
  have hjoined := (facts.keeps_supposing values c.facts).extends
  have hjoinedWhole := hagrees.extends_supposed c.facts
  have hjoinedLiteral := (hagrees.supposing c.facts).literal hvalues
  obtain ⟨joint, hjoint⟩ := exists_evaluate hjoinedLiteral c hc
  have hsame := c.verdict_of_extends hjoined hf hsettled hjoint
  have hsameWhole :=
    c.verdict_of_extends hjoinedWhole hwholeFinding hwholeSettled hjoint
  rw [HoldsIn, holds_iff hwholeFinding, ← hsameWhole, hsame]

end Condition

/-! ## The model -/

namespace KnowledgeBase

/-- What the knowledge base says of a fact, if all that the fact depends on has the
values supposed: the value given, else that of a rule which holds, else `undefined`. -/
def closedWorldValue (kb : KnowledgeBase) (values : String → String) (fact : String) :
    String :=
  match kb.start.facts.get? fact with
  | some record => record.value
  | none =>
    match (kb.rulesInferring fact).find? fun rule => rule.condition.HoldsIn values with
    | some rule => (rule.consequences.get? fact).getD undefinedValue
    | none => undefinedValue

variable {kb : KnowledgeBase}

theorem closedWorldValue_congr {values values' : String → String} {fact : String}
    (h : ∀ name, kb.Feeds name fact → values name = values' name) :
    kb.closedWorldValue values fact = kb.closedWorldValue values' fact := by
  have hfind : ((kb.rulesInferring fact).find? fun rule =>
      rule.condition.HoldsIn values) =
      (kb.rulesInferring fact).find? fun rule => rule.condition.HoldsIn values' := by
    apply List.find?_congr
    intro rule hrule
    have hiff : rule.condition.HoldsIn values ↔ rule.condition.HoldsIn values' :=
      Condition.holdsIn_congr fun leaf hleaf => h _ (feeds_of_mem hrule hleaf)
    simp [hiff]
  rw [closedWorldValue, closedWorldValue, hfind]

/-- What the knowledge base says of a fact, by recursion on what the fact depends on. -/
def model (kb : KnowledgeBase) (h : kb.Acyclic) (fact : String) : String :=
  kb.closedWorldValue
    (fun name => if _ : kb.Feeds name fact then kb.model h name
      else undefinedValue) fact
termination_by h.wellFounded.wrap fact
decreasing_by assumption

/-- Every fact has the value that the knowledge base gives it, all
others being as supposed. -/
def Describes (kb : KnowledgeBase) (values : String → String) : Prop :=
  ∀ fact, values fact = kb.closedWorldValue values fact

/-- The model is an assignment that the knowledge base describes. -/
theorem describes_model (h : kb.Acyclic) : kb.Describes (kb.model h) := by
  intro fact
  rw [model]
  apply closedWorldValue_congr
  intro name hfeeds
  simp [hfeeds]

/-- No other assignment is. -/
theorem Describes.eq_model {values : String → String} (hvalues : kb.Describes values)
    (h : kb.Acyclic) (fact : String) : values fact = kb.model h fact := by
  induction fact using h.wellFounded.induction with
  | _ fact ih =>
      rw [hvalues fact, describes_model h fact]
      exact closedWorldValue_congr ih

/-! ## What the model says -/

theorem closedWorldValue_of_start {values : String → String} {fact : String}
    {record : Record} (h : kb.start.facts.get? fact = some record) :
    kb.closedWorldValue values fact = record.value := by
  rw [closedWorldValue, h]

/-- No two rules give one fact different values. -/
def Consistent (kb : KnowledgeBase) : Prop :=
  ∀ rule ∈ kb.rules, ∀ rule' ∈ kb.rules, ∀ e ∈ rule.consequences.entries,
    ∀ e' ∈ rule'.consequences.entries, e.1 = e'.1 → e.2 = e'.2

instance (kb : KnowledgeBase) : Decidable kb.Consistent := by
  unfold Consistent
  infer_instance

/-- A fact has the value from any rule that holds, as all have the same. -/
theorem closedWorldValue_of_holdsIn {values : String → String} {fact value : String}
    {rule : Rule} (hconsistent : kb.Consistent)
    (hnone : kb.start.facts.get? fact = none) (hrule : rule ∈ kb.rules)
    (hvalue : rule.consequences.get? fact = some value)
    (hholds : rule.condition.HoldsIn values) :
    kb.closedWorldValue values fact = value := by
  rw [closedWorldValue, hnone]
  cases hfind : (kb.rulesInferring fact).find? fun rule =>
      rule.condition.HoldsIn values with
  | none =>
      have hinfers : rule ∈ kb.rulesInferring fact :=
        List.mem_filter.2 ⟨hrule, Rule.infers_iff.2 ⟨value, hvalue⟩⟩
      have hnot := List.find?_eq_none.1 hfind rule hinfers
      simp [hholds] at hnot
  | some first =>
      obtain ⟨hfirst, hinfers⟩ := List.mem_filter.1 (List.mem_of_find?_eq_some hfind)
      obtain ⟨value', hvalue'⟩ := Rule.infers_iff.1 hinfers
      have hsame := hconsistent first hfirst rule hrule (fact, value')
        (KeyMap.mem_entries_iff.2 hvalue') (fact, value)
          (KeyMap.mem_entries_iff.2 hvalue) rfl
      simpa [hvalue'] using hsame

theorem closedWorldValue_of_forall_not {values : String → String} {fact : String}
    (hnone : kb.start.facts.get? fact = none)
    (hnot : ∀ rule ∈ kb.rulesInferring fact, ¬rule.condition.HoldsIn values) :
    kb.closedWorldValue values fact = undefinedValue := by
  have hfind : (kb.rulesInferring fact).find?
      (fun rule => rule.condition.HoldsIn values) =
      none := by
    refine List.find?_eq_none.2 fun rule hrule => ?_
    simp [hnot rule hrule]
  rw [closedWorldValue, hnone, hfind]

/-- None of the texts in the knowledge base that variables would be followed in is
a variable. -/
structure Plain (kb : KnowledgeBase) : Prop where
  goals : ∀ goal ∈ kb.goals, isVariable goal.name = false
  answers : ∀ goal ∈ kb.goals, ∀ answer ∈ goal.answers, ∀ value ∈ answer.value,
    isVariable value = false
  conditions : ∀ rule ∈ kb.rules, rule.condition.Plain
  consequences : ∀ rule ∈ kb.rules, ∀ e ∈ rule.consequences.entries,
    isVariable e.2 = false
  options : ∀ question ∈ kb.questions, ∀ choice ∈ question.options,
    ∀ e ∈ choice.consequences.entries, isVariable e.2 = false
  facts : ∀ e ∈ kb.facts.entries, isVariable e.2 = false

theorem Plain.start (h : kb.Plain) : kb.start.facts.Literal := by
  exact Facts.literal_initial.record _ h.facts

/-- The values described are no variables. -/
theorem Describes.literal {values : String → String} (hvalues : kb.Describes values)
    (h : kb.Plain) (fact : String) : isVariable (values fact) = false := by
  rw [hvalues fact]
  unfold closedWorldValue
  split
  · next record hget => exact h.start fact record hget
  · split
    · next rule hfind =>
      obtain ⟨hrule, -⟩ := List.mem_filter.1 (List.mem_of_find?_eq_some hfind)
      cases hvalue : rule.consequences.get? fact with
      | none => decide
      | some value =>
          exact h.consequences rule hrule (fact, value)
            (KeyMap.mem_entries_iff.2 hvalue)
    · decide

end KnowledgeBase

end Consult
