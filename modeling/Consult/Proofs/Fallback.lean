import Consult.Proofs.Path

/-!
# Facts assumed undefined

A fact that nothing can determine is assumed undefined.  A rule that could have
given it another value has then been ruled out, which is final, or was undecided
and stranded: every fact that it awaited was on the agenda already, as a goal
whose turn had not come or as a fact on whose behalf the rule was tried.  A
stranded rule may hold later on, when the fact has its value.

## Main results

* `undefined_sound_iff` — the facts assumed undefined are those that no rule
  could give a value, unless a stranded rule comes to hold.
* `fallbackSound_of_acyclic` — no rule is ever stranded if there is one goal and
  no fact depends on itself.
-/

namespace Consult

/-! ## What the fallback promises -/

/-- The rule would give the fact a value other than `undefined`. -/
def Rule.Defines (rule : Rule) (fact : String) : Prop :=
  ∃ value, rule.consequences.get? fact = some value ∧ value ≠ undefinedValue

/-- No rule that holds would define a fact that was assumed undefined. -/
def KnowledgeBase.FallbackSound (kb : KnowledgeBase) (facts : Facts) : Prop :=
  ∀ fact, facts.AssumedUndefined fact →
    ∀ rule ∈ kb.rules, rule.Defines fact → ¬rule.condition.Holds facts

/-- The rule is undecided, and all that it awaits is on the agenda. -/
def Rule.Stranded (rule : Rule) (s : Consultation) : Prop :=
  ∃ finding, rule.condition.evaluate s.facts = .ok finding ∧ finding.verdict = .maybe ∧
    ∀ fact, finding.Awaits fact → fact ∈ s.agenda

theorem Rule.Defines.infers {rule : Rule} {fact : String} (h : rule.Defines fact) :
    rule.infers fact = true := by
  obtain ⟨value, hvalue, -⟩ := h
  exact Rule.infers_iff.2 ⟨value, hvalue⟩

/-- `kb.GivesUp limits fact s s'`: the turn of the goal in front of the agenda leads
from `s`, where the fact is not recorded, to `s'`, where it is assumed undefined. -/
inductive KnowledgeBase.GivesUp (kb : KnowledgeBase) (limits : Limits) (fact : String) :
    Consultation → Consultation → Prop where
  | turn {s : Consultation} {goal : String} {rest : List String}
      (hagenda : s.agenda = goal :: rest) (hnone : s.facts.get? fact = none)
      (hassumed : (turn kb limits goal s).state.facts.AssumedUndefined fact) :
      GivesUp kb limits fact s (turn kb limits goal s).state

/-- The same of the turns of an engine. -/
def Engine.GivesUp (e : Engine) (fact : String) : Consultation → Consultation → Prop :=
  e.knowledge.GivesUp e.limits fact

/-! ## Where the assumption is made -/

theorem Facts.given_ne_reason_undefinedRecord {explanation : String} (fact : String)
    (h : explanation.toList.head? ≠ some 'N') :
    Reason.given explanation ≠ (undefinedRecord fact).reason := by
  intro heq
  apply h
  unfold undefinedRecord at heq
  cases heq
  rw [String.toList_append, String.toList_append]
  rfl

/-- At the start no fact has been assumed undefined. -/
theorem KnowledgeBase.not_assumedUndefined_start (kb : KnowledgeBase) (fact : String) :
    ¬kb.start.facts.AssumedUndefined fact := by
  intro h
  rcases Facts.of_get?_record h with hbuiltIn | ⟨-, -, hreason⟩
  · unfold Facts.initial at hbuiltIn
    rw [KeyMap.get?_insert] at hbuiltIn
    split at hbuiltIn
    · have hreason := congrArg Record.reason (Option.some.inj hbuiltIn)
      exact Facts.given_ne_reason_undefinedRecord fact (by decide) hreason
    · simp at hbuiltIn
  · exact Facts.given_ne_reason_undefinedRecord fact (by decide) hreason.symm

/-- Consequences do not make a fact assumed undefined, if they have another reason. -/
theorem Consultation.assumedUndefined_of_apply {s : Consultation}
    {consequences : Consequences} {reason : Reason} {fact : String}
    (hreason : reason ≠ (Facts.undefinedRecord fact).reason)
    (h : (s.apply consequences reason).1.facts.AssumedUndefined fact) :
    s.facts.AssumedUndefined fact := by
  rcases Facts.of_get?_record h with hold | ⟨-, -, hnew⟩
  · exact hold
  · exact absurd hnew.symm hreason

theorem Fired.assumedUndefined {kb : KnowledgeBase} {s s' : Consultation}
    (h : Fired kb s s') {fact : String} (hassumed : s'.facts.AssumedUndefined fact) :
    s.facts.AssumedUndefined fact := by
  cases h with
  | none => exact hassumed
  | @rule rule finding _ _ _ =>
      have hreason : Reason.inferred rule finding ≠
          (Facts.undefinedRecord fact).reason := nofun
      exact Consultation.assumedUndefined_of_apply hreason hassumed

/-- A turn that makes a fact assumed undefined is that of a goal which stands for
it, when no rule holds and those that are undecided are stranded. -/
theorem assumedUndefined_turn {kb : KnowledgeBase} {limits : Limits}
    {goal fact : String} {s : Consultation} (hnone : s.facts.get? fact = none)
    (hassumed : (turn kb limits goal s).state.facts.AssumedUndefined fact) :
    s.facts.resolve goal = .ok (.literal fact) ∧
      ∃ findings, Unsettled kb s fact findings ∧
      ∀ finding ∈ findings, ∀ other, finding.Awaits other → other ∈ s.agenda := by
  have hnot : ¬s.facts.AssumedUndefined fact := by
    unfold Facts.AssumedUndefined
    simp [hnone]
  revert hassumed
  show (turn kb limits goal s).Post fun _ s' => s'.facts.AssumedUndefined fact →
    s.facts.resolve goal = .ok (.literal fact) ∧
    ∃ findings, Unsettled kb s fact findings ∧
      ∀ finding ∈ findings, ∀ other, finding.Awaits other → other ∈ s.agenda
  refine (turn_cases kb limits goal s).mono ?_
  intro x s' hturn hassumed
  cases hturn with
  | circular _ => exact absurd hassumed hnot
  | circularRule _ _ => exact absurd hassumed hnot
  | circularValue hfired _ _ _ => exact absurd (hfired.assumedUndefined hassumed) hnot
  | overflow hwants _ _ => exact absurd (hwants.fired.assumedUndefined hassumed) hnot
  | asked _ _ _ => exact absurd hassumed hnot
  | pushed hwants _ _ => exact absurd (hwants.fired.assumedUndefined hassumed) hnot
  | dropped _ _ => exact absurd hassumed hnot
  | stalled hfired _ _ _ _ => exact absurd (hfired.assumedUndefined hassumed) hnot
  | concluded hfired _ _ _ => exact absurd (hfired.assumedUndefined hassumed) hnot
  | @assumed name findings hgoal hfacts hpursued hquestions =>
      have hget : (s.facts.get? fact).or
          (if fact = name then some (Facts.undefinedRecord name) else none) =
            some (Facts.undefinedRecord fact) :=
        (Consultation.get?_assumeUndefined s.pop name fact).symm.trans hassumed
      by_cases hname : fact = name
      · exact ⟨hname ▸ hgoal, findings, hname ▸ hfacts, hpursued⟩
      · simp [hnone, hname] at hget

namespace KnowledgeBase

open Engine (Progress reply_cases)

variable {kb : KnowledgeBase} {limits : Limits}

/-- A move that makes a fact assumed undefined is a turn that gives it up. -/
theorem Moves.givesUp {s s' : Consultation} (h : kb.Moves limits s s') {fact : String}
    (hassumed : s'.facts.AssumedUndefined fact) :
    s.facts.AssumedUndefined fact ∨ kb.GivesUp limits fact s s' := by
  have hkeeps := h.keeps
  cases h with
  | turn hback hagenda =>
      cases hget : s.facts.get? fact with
      | none => exact .inr (.turn hagenda hget hassumed)
      | some record =>
          left
          obtain rfl : record = Facts.undefinedRecord fact :=
            Option.some.inj ((hkeeps fact record hget).symm.trans hassumed)
          exact hget
  | sweep _ _ =>
      left
      obtain ⟨left, -, hsame | ⟨rule, -, finding, -, -, hfired⟩⟩ := swept_cases s
      · rw [hsame] at hassumed
        exact hassumed
      · have hreason : Reason.inferred rule finding ≠
            (Facts.undefinedRecord fact).reason := nofun
        rw [hfired] at hassumed
        exact Consultation.assumedUndefined_of_apply hreason hassumed
  | withdraw _ _ _ => exact .inl hassumed
  | @reply pending _ index _ =>
      left
      rcases reply_cases pending index s with hsame | ⟨choice, -, hchosen⟩
      · rw [hsame] at hassumed
        exact hassumed
      · have hreason : Reason.answered pending.question choice ≠
            (Facts.undefinedRecord fact).reason := nofun
        rw [hchosen] at hassumed
        exact Consultation.assumedUndefined_of_apply hreason hassumed

/-- A fact that is assumed undefined has been given up on the way. -/
theorem Course.exists_givesUp {s : Consultation} (h : kb.Course limits kb.start s)
    {fact : String} (hassumed : s.facts.AssumedUndefined fact) :
    ∃ m m', kb.Course limits kb.start m ∧ kb.GivesUp limits fact m m' ∧
      kb.Course limits m' s := by
  induction h with
  | refl => exact absurd hassumed (kb.not_assumedUndefined_start fact)
  | @tail s s' hcourse hmove ih =>
      rcases hmove.givesUp hassumed with hbefore | hgives
      · obtain ⟨m, m', hm, hgives, hm'⟩ := ih hbefore
        exact ⟨m, m', hm, hgives, hm'.tail hmove⟩
      · exact ⟨s, s', hcourse, hgives, .refl⟩

theorem GivesUp.moves {fact : String} {m m' : Consultation}
    (hback : kb.strategy = .backward) (h : kb.GivesUp limits fact m m') :
    kb.Moves limits m m' := by
  cases h with
  | turn hagenda _ _ => exact .turn hback hagenda

/-- When a fact is given up, no rule for it holds, and those that are not ruled
out are stranded. -/
theorem GivesUp.stranded {fact : String} {m m' : Consultation}
    (h : kb.GivesUp limits fact m m') {rule : Rule} (hrule : rule ∈ kb.rules)
    (hdefines : rule.Defines fact) :
    (∃ finding, rule.condition.evaluate m.facts = .ok finding ∧ finding.verdict = .no) ∨
      rule.Stranded m := by
  cases h with
  | turn hagenda hnone hassumed =>
      obtain ⟨-, findings, hfacts, hpursued⟩ := assumedUndefined_turn hnone hassumed
      have hinfers : rule ∈ kb.rulesInferring fact :=
        List.mem_filter.2 ⟨hrule, hdefines.infers⟩
      obtain ⟨finding, heval, hno | ⟨hmaybe, hmem⟩⟩ := hfacts.ruled rule hinfers
      · exact .inl ⟨finding, heval, hno⟩
      · exact .inr ⟨finding, heval, hmaybe, hpursued finding hmem⟩

/-- The facts assumed undefined are those that no rule which holds would define,
if no stranded rule comes to hold. -/
theorem Reachable.fallbackSound (hback : kb.strategy = .backward) {p : Progress}
    (hreach : kb.Reachable limits p)
    (hstranded : ∀ fact m m', kb.Course limits kb.start m →
      kb.GivesUp limits fact m m' → kb.Course limits m' p.state → ∀ rule ∈ kb.rules,
      rule.Defines fact → rule.Stranded m → ¬rule.condition.Holds p.state.facts) :
    kb.FallbackSound p.state.facts := by
  intro fact hassumed rule hrule hdefines hholds
  obtain ⟨m, m', hm, hgives, hm'⟩ := hreach.course.exists_givesUp hassumed
  rcases hgives.stranded hrule hdefines with ⟨f, hf, hno⟩ | hrest
  · -- A rule that is ruled out stays so, whatever facts come in.
    obtain ⟨f', hf', hyes⟩ := hholds
    have hlater := hm'.keeps.trans (hgives.moves hback).keeps
    have hsettled : f.verdict ≠ .maybe := by
      rw [hno]
      decide
    have hsame := rule.condition.verdict_of_extends hlater.extends hf hsettled hf'
    rw [hyes, hno] at hsame
    cases hsame
  · exact hstranded fact m m' hm hgives hm' rule hrule hdefines hrest hholds

end KnowledgeBase

/-! ## When the assumption is right -/

/-- In every consultation by backward chaining, at every point that a caller can
reach: the facts assumed undefined are those that no rule which holds would
define, unless a rule that was stranded when such a fact was given up holds now. -/
theorem undefined_sound_iff {e : Engine} (hback : e.knowledge.strategy = .backward)
    {p : Engine.Progress} (hreach : e.Reachable p) :
    e.knowledge.FallbackSound p.state.facts ↔
      ∀ fact m m', e.Course e.start m → e.GivesUp fact m m' → e.Course m' p.state →
        ∀ rule ∈ e.knowledge.rules, rule.Defines fact → rule.Stranded m →
          ¬rule.condition.Holds p.state.facts := by
  constructor
  · intro hsound fact m m' _ hgives hcourse rule hrule hdefines _
    have hassumed : m'.facts.AssumedUndefined fact := by
      cases hgives with
      | turn _ _ hassumed => exact hassumed
    exact hsound fact (hcourse.keeps fact _ hassumed) rule hrule hdefines
  · intro hstranded
    exact hreach.fallbackSound hback hstranded

/-! ## A goal that waits its turn -/

/-- The rule of `waitingEngine` for its first goal. -/
def waitingRule : Rule where
  condition := .equals "b" "yes"
  consequences := KeyMap.empty.insert "a" "yes"

/-- Two goals, of which the first depends on the second. -/
def waitingEngine : Engine where
  knowledge :=
    { rules := [
        { condition := .equals "c" "yes"
          consequences := KeyMap.empty.insert "b" "yes" },
        waitingRule]
      goals := [{ name := "a" }, { name := "b" }]
      facts := KeyMap.empty.insert "c" "yes" }
  limits := { maxSteps := 10 }
  checked := by rfl

/-- The first goal is given up while the second waits on the agenda, and the rule
for it holds when the second is settled. -/
private theorem not_fallbackSound_waitingEngine :
    ¬waitingEngine.knowledge.FallbackSound
      (waitingEngine.step waitingEngine.start).state.facts := by
  intro hsound
  have hrule : waitingRule ∈ waitingEngine.knowledge.rules := by
    simp [waitingEngine]
  have hdefines : waitingRule.Defines "a" := ⟨"yes", rfl, by decide⟩
  exact hsound "a" (by decide) waitingRule hrule hdefines ⟨_, rfl, rfl⟩

/-- It is a stranded rule that holds in the end. -/
theorem waitingEngine_stranded :
    ∃ fact m m', waitingEngine.Course waitingEngine.start m ∧
      waitingEngine.GivesUp fact m m' ∧
      waitingEngine.Course m' (waitingEngine.step waitingEngine.start).state ∧
      ∃ rule ∈ waitingEngine.knowledge.rules, rule.Defines fact ∧ rule.Stranded m ∧
        rule.condition.Holds (waitingEngine.step waitingEngine.start).state.facts := by
  by_contra hnone
  have hreach : waitingEngine.Reachable
      ⟨(waitingEngine.step waitingEngine.start).state,
        Engine.handedOut (waitingEngine.step waitingEngine.start).result ++ []⟩ :=
    .single (.step ⟨waitingEngine.start, []⟩)
  apply not_fallbackSound_waitingEngine
  refine (undefined_sound_iff rfl hreach).2 ?_
  intro fact m m' hm hgives hm' rule hrule hdefines hstranded hholds
  exact hnone ⟨fact, m, m', hm, hgives, hm', rule, hrule, hdefines, hstranded, hholds⟩

/-- The order of the goals matters: facts are assumed undefined although a rule
that holds in the end defines them. -/
theorem not_always_fallbackSound :
    ¬∀ e : Engine, e.knowledge.strategy = .backward → ∀ p : Engine.Progress,
      e.Reachable p → (e.step p.state).result = .ok .decided →
      e.knowledge.FallbackSound (e.step p.state).state.facts := by
  intro h
  exact not_fallbackSound_waitingEngine
    (h waitingEngine rfl ⟨waitingEngine.start, []⟩ .refl rfl)

/-! ## Facts that do not depend on themselves -/

/-- No rule for a fact is stranded when this is given up, if the agenda is a path. -/
theorem KnowledgeBase.GivesUp.not_stranded {kb : KnowledgeBase} {limits : Limits}
    {fact : String} {m m' : Consultation} (hgives : kb.GivesUp limits fact m m')
    (h : OnPath kb m) (hplain : kb.Plain) (hacyclic : kb.Acyclic) {rule : Rule}
    (hrule : rule ∈ kb.rules) (hdefines : rule.Defines fact) : ¬rule.Stranded m := by
  rintro ⟨finding, heval, hmaybe, hpursued⟩
  cases hgives with
  | turn hagenda hnone hassumed =>
      obtain ⟨hgoal, -⟩ := assumedUndefined_turn hnone hassumed
      rw [h.resolve_front hagenda] at hgoal
      cases hgoal
      have hinfers : rule ∈ kb.rulesInferring fact :=
        List.mem_filter.2 ⟨hrule, hdefines.infers⟩
      obtain ⟨other, hawaits, hnew⟩ :=
        h.exists_awaits_notMem hplain hacyclic hagenda hinfers heval hmaybe
      exact hnew (hpursued other hawaits)

/-- With one goal, texts that stand for themselves and no fact that depends on
itself, the assumption is right at every point that a caller can reach, whatever
questions are asked and however they are answered. -/
theorem fallbackSound_of_acyclic {e : Engine} (hback : e.knowledge.strategy = .backward)
    (hplain : e.knowledge.Plain) (hacyclic : e.knowledge.Acyclic) {goal : Goal}
    (hgoals : e.knowledge.goals = [goal]) {p : Engine.Progress}
    (hreach : e.Reachable p) :
    e.knowledge.FallbackSound p.state.facts := by
  apply hreach.fallbackSound hback
  intro fact m m' hm hgives _ rule hrule hdefines hstranded
  have honPath := hm.onPath hback hplain hgoals
  exact absurd hstranded (hgives.not_stranded honPath hplain hacyclic hrule hdefines)

end Consult
