import Consult.Proofs.Continuation
import Consult.Proofs.Persistence

/-!
# Reasons are true

Every record names the reason for its value.  `Warrants` says what such a reason
must be able to show: a rule that still holds and a finding whose grounds are
records of other facts, an option of a question, or that the value was given.
A record warranted once stays so, since facts keep their values and what held
holds; and whatever a consultation records, it records with a warrant.

## Main results

* `Condition.exists_get?_of_cites` — a finding cites the reasons of recorded facts.
* `Warrants.of_keeps` — a warrant outlasts new facts.
* `Attains.warranted` — all that is recorded in a consultation has a warrant.
-/

namespace Consult

/-! ## Cited reasons -/

/-- The reason is among the grounds of the finding, or of a part of it. -/
inductive Finding.Cites (reason : Reason) : Finding → Prop where
  | cause {v : Verdict} {gs : List Ground} (hmem : .cause reason ∈ gs) :
      Cites reason (.because v gs)
  | part {v : Verdict} {gs : List Ground} {f : Finding} (hmem : .finding f ∈ gs)
      (hpart : Cites reason f) : Cites reason (.because v gs)

namespace Finding

variable {reason : Reason}

theorem not_cites_missing (fact : String) : ¬(missing fact).Cites reason := by
  intro h
  cases h with
  | cause hmem => simp at hmem
  | part hmem _ => simp at hmem

theorem cites_because_cause_iff {v : Verdict} {other : Reason} :
    (because v [.cause other]).Cites reason ↔ reason = other := by
  constructor
  · intro h
    cases h with
    | cause hmem => simpa using hmem
    | part hmem _ => simp at hmem
  · rintro rfl
    exact .cause List.mem_cons_self

theorem cites_negate_iff {f : Finding} : f.negate.Cites reason ↔ f.Cites reason := by
  constructor
  · intro h
    cases h with
    | cause hmem => simp at hmem
    | part hmem hpart =>
        obtain rfl : _ = f := by simpa using hmem
        exact hpart
  · exact .part List.mem_cons_self

/-- A combination of findings cites what one of them cites. -/
theorem cites_because_map_iff {v : Verdict} {fs : List Finding} :
    (because v (fs.map .finding)).Cites reason ↔ ∃ f ∈ fs, f.Cites reason := by
  constructor
  · intro h
    cases h with
    | cause hmem => simp at hmem
    | part hmem hpart => exact ⟨_, by simpa using hmem, hpart⟩
  · rintro ⟨f, hmem, hpart⟩
    exact .part (List.mem_map_of_mem hmem) hpart

end Finding

/-- A finding cites the reasons of recorded facts. -/
theorem Condition.exists_get?_of_cites {facts : Facts} {reason : Reason}
    (c : Condition) :
    ∀ {f : Finding}, c.evaluate facts = .ok f → f.Cites reason →
      ∃ fact record, facts.get? fact = some record ∧ record.reason = reason := by
  induction c using Condition.induction with
  | compare c =>
      intro f hf hcites
      cases evaluate_compare_eq_ok_iff.1 hf with
      | name _ => exact absurd hcites (Finding.not_cites_missing _)
      | fact _ _ => exact absurd hcites (Finding.not_cites_missing _)
      | value _ _ _ => exact absurd hcites (Finding.not_cites_missing _)
      | expected _ _ _ _ => exact absurd hcites (Finding.not_cites_missing _)
      | @settled name _ _ record _ hget _ _ =>
          exact ⟨name, record, hget, (Finding.cites_because_cause_iff.1 hcites).symm⟩
  | negation c ih =>
      intro f hf hcites
      obtain ⟨part, hpart, rfl⟩ := evaluate_negation_eq_ok_iff.1 hf
      exact ih hpart (Finding.cites_negate_iff.1 hcites)
  | atLeast k cs ih =>
      intro f hf hcites
      obtain ⟨parts, hparts, rfl⟩ := evaluate_atLeast_eq_ok_iff.1 hf
      obtain ⟨bearing, hgroup, hbearing⟩ := exists_grounds_of_ofGroup (k := k) hparts
      rw [hgroup] at hcites
      obtain ⟨part, hmem, hcites⟩ := Finding.cites_because_map_iff.1 hcites
      obtain ⟨c, hc, hpart⟩ := hbearing part hmem
      exact ih c hc hpart hcites

/-! ## Warrants -/

/-- The record of the fact has a reason that is true, given these facts. -/
inductive KnowledgeBase.Warrants (kb : KnowledgeBase) (facts : Facts) (fact : String) :
    Record → Prop where
  | inferred {rule : Rule} {finding : Finding} {value : String}
      (hrule : rule ∈ kb.rules)
      (hvalue : rule.consequences.get? fact = some value)
        (hyes : finding.verdict = .yes)
      (hholds : rule.condition.Finds facts .yes ∨
        ∃ chain, rule.condition.evaluate facts = .error (.circular chain))
      (hcited : ∀ reason, finding.Cites reason → ∃ other, other ≠ fact ∧
        ∃ record, facts.get? other = some record ∧ record.reason = reason) :
      Warrants kb facts fact ⟨value, .inferred rule finding⟩
  | answered {question : Question} {choice : Choice} {value : String}
      (hquestion : question ∈ kb.questions) (hchoice : choice ∈ question.options)
      (hvalue : choice.consequences.get? fact = some value) :
      Warrants kb facts fact ⟨value, .answered question choice⟩
  | builtIn {explanation : String} (hfact : fact = undefinedValue) :
      Warrants kb facts fact ⟨undefinedValue, .given explanation⟩
  | predefined {value explanation : String} (hvalue : kb.facts.get? fact = some value) :
      Warrants kb facts fact ⟨value, .given explanation⟩
  | assumed : Warrants kb facts fact (Facts.undefinedRecord fact)

/-- All that is recorded has a warrant. -/
def KnowledgeBase.Warranted (kb : KnowledgeBase) (facts : Facts) : Prop :=
  ∀ fact record, facts.get? fact = some record → kb.Warrants facts fact record

namespace KnowledgeBase

variable {kb : KnowledgeBase}

/-- A warrant outlasts new facts. -/
theorem Warrants.of_keeps {facts facts' : Facts} {fact : String} {record : Record}
    (h : kb.Warrants facts fact record) (hkeeps : facts'.Keeps facts) :
    kb.Warrants facts' fact record := by
  cases h with
  | @inferred rule finding value hrule hvalue hyes hholds hcited =>
      refine .inferred hrule hvalue hyes ?_ fun reason hcites => ?_
      · rcases hholds with hholds | ⟨chain, hcircular⟩
        · exact hholds.of_extends hkeeps.extends (by decide)
        · obtain ⟨fault, hfault⟩ :=
            rule.condition.evaluate_error_of_extends hkeeps.extends hcircular
          obtain ⟨chain', rfl⟩ := rule.condition.circular_of_evaluate hfault
          exact .inr ⟨chain', hfault⟩
      · obtain ⟨other, hne, record, hget, hreason⟩ := hcited reason hcites
        exact ⟨other, hne, record, hkeeps other record hget, hreason⟩
  | answered hquestion hchoice hvalue => exact .answered hquestion hchoice hvalue
  | builtIn hfact => exact .builtIn hfact
  | predefined hvalue => exact .predefined hvalue
  | assumed => exact .assumed

/-- Consequences may be recorded for a reason that warrants the new records. -/
theorem Warranted.record {facts : Facts} {consequences : Consequences} {reason : Reason}
    (h : kb.Warranted facts)
    (hnew : ∀ fact value, facts.get? fact = none → consequences.get? fact = some value →
      kb.Warrants facts fact ⟨value, reason⟩) :
    kb.Warranted (facts.record consequences reason) := by
  intro fact record hget
  have hkeeps := Facts.keeps_record facts consequences reason
  rcases Facts.of_get?_record hget with hold | ⟨hnone, hvalue, rfl⟩
  · exact (h fact record hold).of_keeps hkeeps
  · exact (hnew fact record.value hnone hvalue).of_keeps hkeeps

/-- A rule that holds warrants what it infers. -/
theorem Warranted.applyRule {s : Consultation} (h : kb.Warranted s.facts) {rule : Rule}
    {finding : Finding} (hrule : rule ∈ kb.rules)
    (heval : rule.condition.evaluate s.facts = .ok finding)
    (hyes : finding.verdict = .yes) :
    kb.Warranted (s.applyRule rule finding).1.facts := by
  refine h.record fun fact value hnone hvalue => ?_
  refine .inferred hrule hvalue hyes (.inl ⟨finding, heval, hyes⟩) fun reason hcites =>
    ?_
  obtain ⟨other, record, hget, hreason⟩ :=
    rule.condition.exists_get?_of_cites heval hcites
  -- What is cited is recorded, and the fact was not.
  have hne : other ≠ fact := by
    rintro rfl
    simp [hnone] at hget
  exact ⟨other, hne, record, hget, hreason⟩

theorem Warranted.assumeUndefined {s : Consultation} (h : kb.Warranted s.facts)
    (fact : String) :
    kb.Warranted (s.assumeUndefined fact).1.facts := by
  refine h.record fun other value _ hvalue => ?_
  rw [KeyMap.get?_insert, KeyMap.get?_empty] at hvalue
  split at hvalue
  · next heq =>
    obtain rfl := heq
    obtain rfl := Option.some.inj hvalue
    exact .assumed
  · cases hvalue

/-- At the start there are the fact that is built in and those of the knowledge base. -/
theorem warranted_start (kb : KnowledgeBase) : kb.Warranted kb.start.facts := by
  have hinitial : kb.Warranted Facts.initial := by
    intro fact record hget
    rw [Facts.initial, KeyMap.get?_insert, KeyMap.get?_empty] at hget
    split at hget
    · next heq =>
      obtain rfl := Option.some.inj hget
      exact .builtIn heq
    · cases hget
  exact hinitial.record fun fact value _ hvalue => .predefined hvalue

end KnowledgeBase

/-! ## Consultations -/

theorem Fired.warranted {kb : KnowledgeBase} {s s' : Consultation} (h : Fired kb s s')
    (hwarranted : kb.Warranted s.facts) : kb.Warranted s'.facts := by
  cases h with
  | none => exact hwarranted
  | rule hrule heval hyes => exact hwarranted.applyRule hrule heval hyes

theorem warranted_turn (kb : KnowledgeBase) (limits : Limits) (goal : String)
    {s : Consultation} (h : kb.Warranted s.facts) :
    kb.Warranted (turn kb limits goal s).state.facts := by
  show (turn kb limits goal s).Post fun _ s' => kb.Warranted s'.facts
  refine (turn_cases kb limits goal s).mono ?_
  intro x s' hturn
  cases hturn with
  | circular _ => exact h
  | circularRule _ _ => exact h
  | circularValue hfired _ _ _ => exact hfired.warranted h
  | overflow hwants _ _ => exact hwants.fired.warranted h
  | asked _ _ _ => exact h
  | pushed hwants _ _ => exact hwants.fired.warranted h
  | dropped _ _ => exact h
  | stalled hfired _ _ _ _ => exact hfired.warranted h
  | assumed _ _ _ _ => exact KnowledgeBase.Warranted.assumeUndefined (s := s.pop) h _
  | concluded hfired _ _ _ => exact hfired.warranted h

namespace KnowledgeBase

open Engine (Progress reply_cases)

variable {kb : KnowledgeBase} {limits : Limits}

/-- A move records nothing without a warrant. -/
theorem Moves.warranted {s s' : Consultation} (h : kb.Moves limits s s')
    (hrules : s.rules ⊆ kb.rules) (hwarranted : kb.Warranted s.facts) :
    kb.Warranted s'.facts := by
  cases h with
  | turn _ _ => exact warranted_turn _ _ _ hwarranted
  | sweep _ _ =>
      obtain ⟨left, -, hsame | ⟨rule, hrule, finding, heval, hyes, hfired⟩⟩ :=
        swept_cases s
      · rw [hsame]
        exact hwarranted
      · rw [hfired]
        exact KnowledgeBase.Warranted.applyRule
          (s := { s with rules := left }) hwarranted
          (hrules hrule) heval hyes
  | withdraw _ _ _ => exact hwarranted
  | @reply pending hquestion index _ =>
      rcases reply_cases pending index s with hsame | ⟨choice, hchoice, hchosen⟩
      · rw [hsame]
        exact hwarranted
      · rw [hchosen]
        exact hwarranted.record fun _ _ _ hvalue => .answered hquestion hchoice hvalue

/-- Moves record nothing without a warrant. -/
theorem Course.warranted {s s' : Consultation} (h : kb.Course limits s s')
    (hrules : s.rules ⊆ kb.rules) (hwarranted : kb.Warranted s.facts) :
    kb.Warranted s'.facts := by
  induction h with
  | refl => exact hwarranted
  | tail hcourse hmove ih =>
      exact hmove.warranted (List.Subset.trans (Course.rules hcourse) hrules) ih

/-- All that is recorded in a consultation has a warrant, whatever the limits are. -/
theorem Attains.warranted {p : Progress} (h : kb.Attains p) :
    kb.Warranted p.state.facts := by
  have hsupplied : kb.Supplies p ∧ kb.Warranted p.state.facts := by
    induction h with
    | refl => exact ⟨kb.supplies_start, kb.warranted_start⟩
    | tail _ hadvance ih =>
        obtain ⟨limits, hadvance⟩ := hadvance
        obtain ⟨hsupplies, hwarranted⟩ := ih
        have hcourse := hadvance.course hsupplies
        exact ⟨hadvance.supplies hsupplies,
          hcourse.warranted hsupplies.rules hwarranted⟩
  exact hsupplied.2

end KnowledgeBase

/-- Whatever a caller does, the reason of every record is true: a rule of the
knowledge base that still holds, on grounds that are recorded for other facts; an
option of one of its questions; or that the value was given from the start or
assumed undefined. -/
theorem provenance_truthful (e : Engine) (p : Engine.Progress) (hreach : e.Reachable p)
    (fact : String) (record : Record) (hget : p.state.facts.get? fact = some record) :
    e.knowledge.Warrants p.state.facts fact record :=
  hreach.attains.warranted fact record hget

/-- The outing when all is decided. -/
def outingDecided : Engine.Progress where
  state := (outingEngine.step outingInRain.state).state
  asked :=
    Engine.handedOut (outingEngine.step outingInRain.state).result ++ outingInRain.asked

/-- The umbrella is inferred from the rain, which is an answer. -/
theorem umbrella_warranted :
    ∃ rule choice,
      outingDecided.state.facts.get? "weather" =
        some ⟨"rain", .answered weatherQuestion choice⟩ ∧
      outingDecided.state.facts.get? "umbrella" =
        some ⟨"yes", .inferred rule
          (.because .yes [.cause (.answered weatherQuestion choice)])⟩ ∧
      outingEngine.knowledge.Warrants outingDecided.state.facts "umbrella"
        ⟨"yes", .inferred rule
          (.because .yes [.cause (.answered weatherQuestion choice)])⟩ := by
  have hreach : outingEngine.Reachable outingDecided :=
    reachable_outingInRain.tail (.step outingInRain)
  exact ⟨_, _, rfl, rfl,
    provenance_truthful outingEngine outingDecided hreach "umbrella" _ rfl⟩

end Consult
