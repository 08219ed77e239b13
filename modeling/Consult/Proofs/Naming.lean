import Consult.Proofs.Course

/-!
# Plain names

A text with two dollar signs in front stands for the value of a fact whose name
is itself a variable.  A knowledge base that has no such text, and calls its goals
by the names of facts, is plainly named.  Then whatever is pursued or awaited in a
consultation is the name of a fact, while values may be variables and lead through
any number of facts.

## Main results

* `Course.plainlyNamed` — the agenda has names of facts only.
-/

namespace Consult

/-- The text is no variable, or one that stands for the value of a fact whose name
is no variable. -/
def RefersPlainly (text : String) : Prop :=
  ∀ name, target? text = some name → isVariable name = false

instance (text : String) : Decidable (RefersPlainly text) :=
  inferInstanceAs (Decidable (∀ name ∈ target? text, isVariable name = false))

theorem refersPlainly_of_not_isVariable {text : String} (h : isVariable text = false) :
    RefersPlainly text := by
  intro name ht
  rw [target?_eq_none h] at ht
  cases ht

/-- Every text that the knowledge base may follow refers plainly, and goals are
called by names of facts. -/
structure KnowledgeBase.PlainlyNamed (kb : KnowledgeBase) : Prop where
  goals : ∀ goal ∈ kb.goals, isVariable goal.name = false
  answers : ∀ goal ∈ kb.goals, ∀ answer ∈ goal.answers, ∀ value ∈ answer.value,
    RefersPlainly value
  conditions : ∀ rule ∈ kb.rules, ∀ leaf ∈ rule.condition.leaves,
    RefersPlainly leaf.name ∧ RefersPlainly leaf.value
  consequences : ∀ rule ∈ kb.rules, ∀ e ∈ rule.consequences.entries, RefersPlainly e.2
  options : ∀ question ∈ kb.questions, ∀ choice ∈ question.options,
    ∀ e ∈ choice.consequences.entries, RefersPlainly e.2
  facts : ∀ e ∈ kb.facts.entries, RefersPlainly e.2

/-- Every recorded value refers plainly. -/
def Facts.PlainlyNamed (facts : Facts) : Prop :=
  ∀ fact record, facts.get? fact = some record → RefersPlainly record.value

/-- Every recorded value refers plainly, and names of facts are pursued. -/
structure Consultation.PlainlyNamed (s : Consultation) : Prop where
  facts : s.facts.PlainlyNamed
  agenda : ∀ name ∈ s.agenda, isVariable name = false

/-! ## What is awaited -/

namespace Facts.PlainlyNamed

variable {facts : Facts}

/-- What a chain waits for is the name of a fact. -/
theorem of_resolve_unknown (h : facts.PlainlyNamed) {text fact : String}
    (htext : RefersPlainly text) (hr : facts.resolve text = .ok (.unknown fact)) :
    isVariable fact = false := by
  obtain ⟨through, hlead⟩ := Facts.resolve_eq_ok_iff.1 hr
  generalize hend : Resolution.unknown fact = r at hlead
  induction hlead with
  | literal _ => cases hend
  | unknown ht _ =>
      cases hend
      exact htext _ ht
  | link _ hget hrest ih =>
      subst hend
      exact ih (h _ _ hget) (Facts.resolve_eq_ok_iff.2 ⟨_, hrest⟩) rfl

/-- What a finding awaits is the name of a fact. -/
theorem of_awaits (h : facts.PlainlyNamed) {c : Condition} {f : Finding} {fact : String}
    (hc : ∀ leaf ∈ c.leaves, RefersPlainly leaf.name ∧ RefersPlainly leaf.value)
    (hf : c.evaluate facts = .ok f) (hawaits : f.Awaits fact) :
    isVariable fact = false := by
  obtain ⟨leaf, hleaf, hmissing⟩ := c.exists_leaf_of_awaits hf hawaits
  obtain ⟨hname, hvalue⟩ := hc leaf hleaf
  have hfound := Comparison.evaluate_eq_ok_iff.1 hmissing
  generalize hm : Finding.missing fact = m at hfound
  cases hfound with
  | name hunknown =>
      cases hm
      exact h.of_resolve_unknown hname hunknown
  | fact hliteral _ =>
      cases hm
      exact Facts.isVariable_of_resolve hliteral
  | value _ hget hunknown =>
      cases hm
      exact h.of_resolve_unknown (h _ _ hget) hunknown
  | expected _ _ _ hunknown =>
      cases hm
      exact h.of_resolve_unknown hvalue hunknown
  | settled _ _ _ _ => simp [Finding.missing] at hm

/-- Consequences that refer plainly may be recorded. -/
theorem record (h : facts.PlainlyNamed) {consequences : Consequences} (reason : Reason)
    (hconsequences : ∀ e ∈ consequences.entries, RefersPlainly e.2) :
    (facts.record consequences reason).PlainlyNamed := by
  intro fact record hget
  rcases Facts.of_get?_record hget with hold | ⟨-, hvalue, -⟩
  · exact h fact record hold
  · exact hconsequences _ (KeyMap.mem_entries_iff.2 hvalue)

end Facts.PlainlyNamed

/-! ## Along the way -/

namespace KnowledgeBase.PlainlyNamed

variable {kb : KnowledgeBase} {s s' : Consultation} {goal fact : String}

theorem start (h : kb.PlainlyNamed) : kb.start.PlainlyNamed := by
  have hinitial : Facts.initial.PlainlyNamed := by
    intro fact record hget
    unfold Facts.initial at hget
    rw [KeyMap.get?_insert] at hget
    split at hget
    · cases hget
      exact refersPlainly_of_not_isVariable Facts.isVariable_undefinedValue
    · simp at hget
  constructor
  · exact hinitial.record _ h.facts
  · intro name hname
    obtain ⟨g, hg, rfl | htarget⟩ := mem_seed.1 hname
    · exact h.goals g hg
    · obtain ⟨answer, hanswer, hvalue⟩ := List.mem_filterMap.1 htarget
      obtain ⟨value, hvalue, ht⟩ := Option.bind_eq_some_iff.1 hvalue
      exact h.answers g hg answer hanswer value hvalue name ht

theorem fired (h : kb.PlainlyNamed) (hs : s.facts.PlainlyNamed)
    (hfired : Fired kb s s') :
    s'.facts.PlainlyNamed := by
  cases hfired with
  | none => exact hs
  | rule hrule _ _ => exact hs.record _ (h.consequences _ hrule)

/-- What the goal in front waits for is the name of a fact. -/
theorem wants (h : kb.PlainlyNamed) (hs : s.PlainlyNamed)
    (hgoal : isVariable goal = false) (hwants : Wants kb goal s s' fact) :
    isVariable fact = false := by
  cases hwants with
  | target hunknown =>
      exact hs.facts.of_resolve_unknown (refersPlainly_of_not_isVariable hgoal) hunknown
  | value hfired _ hget hunknown =>
      have hfacts := h.fired hs.facts hfired
      exact hfacts.of_resolve_unknown (hfacts _ _ hget) hunknown
  | rule _ hfacts hmem hawaits =>
      obtain ⟨-, rule, hrule, heval⟩ := hfacts.undecided _ hmem
      exact hs.facts.of_awaits
        (h.conditions rule (List.mem_filter.1 hrule).1) heval hawaits

/-- A turn of a name of a fact. -/
theorem turn (h : kb.PlainlyNamed) (hs : s.PlainlyNamed) (limits : Limits)
    (hgoal : isVariable goal = false) : (turn kb limits goal s).state.PlainlyNamed := by
  have htail : ∀ name ∈ s.agenda.tail, isVariable name = false := fun name hname =>
    hs.agenda name (List.mem_of_mem_tail hname)
  have hafter {t : Consultation} (hfired : Fired kb s t) : t.PlainlyNamed :=
    ⟨h.fired hs.facts hfired, fun name hname => hs.agenda name (hfired.agenda ▸ hname)⟩
  show (Consult.turn kb limits goal s).Post fun _ s' => s'.PlainlyNamed
  refine (turn_cases kb limits goal s).mono ?_
  intro x t hturn
  cases hturn with
  | circular _ => exact hs
  | circularRule _ _ => exact hs
  | circularValue hfired _ _ _ => exact hafter hfired
  | overflow hwants _ _ => exact hafter hwants.fired
  | asked _ _ _ => exact ⟨hs.facts, hs.agenda⟩
  | pushed hwants _ _ =>
      refine ⟨(hafter hwants.fired).facts, fun name hname => ?_⟩
      rcases List.mem_cons.1 hname with rfl | hold
      · exact h.wants hs hgoal hwants
      · exact (hafter hwants.fired).agenda name hold
  | dropped _ _ => exact ⟨hs.facts, htail⟩
  | stalled hfired _ _ _ _ =>
      exact ⟨(hafter hfired).facts, fun name hname =>
        (hafter hfired).agenda name (List.mem_of_mem_tail hname)⟩
  | assumed _ _ _ _ =>
      refine ⟨hs.facts.record _ fun e he => ?_, htail⟩
      obtain rfl := List.mem_singleton.1 he
      exact refersPlainly_of_not_isVariable Facts.isVariable_undefinedValue
  | concluded hfired _ _ _ =>
      exact ⟨(hafter hfired).facts, fun name hname =>
        (hafter hfired).agenda name (List.mem_of_mem_tail hname)⟩

end KnowledgeBase.PlainlyNamed

namespace KnowledgeBase

open Engine (reply_cases)

variable {kb : KnowledgeBase} {limits : Limits} {s s' : Consultation}

theorem Moves.plainlyNamed (h : kb.Moves limits s s') (hback : kb.strategy = .backward)
    (hplain : kb.PlainlyNamed) (hs : s.PlainlyNamed) : s'.PlainlyNamed := by
  cases h with
  | @turn _ goal rest _ hfront =>
      exact hplain.turn hs _ (hs.agenda goal (hfront ▸ List.mem_cons_self))
  | sweep hforth _ => simp [hback] at hforth
  | withdraw hforth _ _ => simp [hback] at hforth
  | @reply pending hquestion index _ =>
      rcases reply_cases pending index s with hsame | ⟨choice, hchoice, hchosen⟩
      · rw [hsame]
        exact hs
      · rw [hchosen]
        exact ⟨hs.facts.record _ (hplain.options _ hquestion choice hchoice), hs.agenda⟩

/-- The agenda has names of facts only. -/
theorem Course.plainlyNamed (h : kb.Course limits kb.start s)
    (hback : kb.strategy = .backward) (hplain : kb.PlainlyNamed) : s.PlainlyNamed := by
  induction h with
  | refl => exact hplain.start
  | tail _ hmove ih => exact hmove.plainlyNamed hback hplain ih

end KnowledgeBase

end Consult
