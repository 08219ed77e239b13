import Consult.Proofs.Frame
import Consult.Proofs.Limits

/-!
# Where a circular chain stops a call, it stops every other one

A call that comes upon a circular chain of variables may have done much by then: goals
have left the agenda, rules have fired or have been ruled out, even in the very round
that fails.  All of that is recorded, so that the next call begins with the round that
failed, and this fails again at the same place without having done anything.  In
backward chaining the goal is still in front of the agenda: either none of its rules
got as far as to fire, or the one that fired has left it a value, which is circular.
In forward chaining the rules that were ruled out are gone, and those that are
undecided leave no trace.

## Main results

* `considered_solve` — an attempt that leaves all as it was has only considered rules.
* `turn_standstill`, `backwardFor_standstill` — backward chaining.
* `forwardFor_standstill` — forward chaining.
* `circular_for_good` — all calls.
-/

namespace Consult

/-- A rule is considered, which has no effect. -/
def Event.IsConsidered (event : Event) : Prop :=
  ∃ rule finding, event = .considered rule finding

/-- A run that has begun with this state has failed in this way without having done
anything: the state is the same, and rules have been considered at most. -/
structure Run.StuckAt {α : Type} (r : Run α) (fault : Fault) (s : Consultation) :
    Prop where
  result : r.result = .error fault
  state : r.state = s
  trace : ∀ event ∈ r.trace, event.IsConsidered

/-! ## Backward chaining -/

theorem considered_survey (facts : Facts) (rules : List Rule) :
    ∀ event ∈ (survey facts rules).trace, event.IsConsidered := by
  induction rules with
  | nil => exact List.forall_mem_nil _
  | cons rule rules ih =>
      cases heval : rule.condition.evaluate facts with
      | error fault =>
          rw [survey_cons_error heval]
          exact List.forall_mem_nil _
      | ok finding =>
          have hfirst : (Event.considered rule finding).IsConsidered :=
            ⟨rule, finding, rfl⟩
          cases hverdict : finding.verdict with
          | yes =>
              rw [survey_cons_yes heval hverdict]
              exact List.forall_mem_singleton.2 hfirst
          | no =>
              rw [survey_cons_no heval hverdict]
              exact List.forall_mem_cons.2 ⟨hfirst, ih⟩
          | maybe =>
              rw [survey_cons_maybe heval hverdict]
              exact List.forall_mem_cons.2 ⟨hfirst, ih⟩

section

variable {kb : KnowledgeBase} {limits : Limits} {goal : String} {s : Consultation}
  {chain : List String}

/-- If there is nothing to ask for a fact, it stays open. -/
theorem askFor_opens (fact : String) (s : Consultation) :
    (∃ finding, (askFor fact s).result = .ok (.unknown finding)) ∨
      ∃ pending, (askFor fact s).result = .ok (.ask pending) := by
  unfold askFor
  split
  · exact .inl ⟨_, rfl⟩
  · exact .inr ⟨_, rfl⟩

theorem considered_settle {fact : String} (hnone : s.facts.get? fact = none)
    (hstate : (settle kb fact s).state = s)
    (hknown : ∀ finding, (settle kb fact s).result ≠ .ok (.unknown finding))
    (hask : ∀ pending, (settle kb fact s).result ≠ .ok (.ask pending)) :
    ∀ event ∈ (settle kb fact s).trace, event.IsConsidered := by
  have hsurvey := considered_survey s.facts (kb.rulesInferring fact)
  unfold settle at hstate hknown hask ⊢
  dsimp only at hstate hknown hask ⊢
  cases hending : (survey s.facts (kb.rulesInferring fact)).ending with
  | error fault => exact hsurvey
  | ok fires =>
      simp only [hending] at hstate hknown hask ⊢
      cases fires with
      | some fires =>
          obtain ⟨rule, finding⟩ := fires
          obtain ⟨record, hget⟩ := exists_get?_fire_of_survey hending
          simp only [hget, Run.ok] at hstate
          rw [hstate, hnone] at hget
          cases hget
      | none =>
          cases hlist : (survey s.facts (kb.rulesInferring fact)).undecided with
          | cons finding findings =>
              rw [hlist] at hknown
              exact absurd rfl (hknown _)
          | nil =>
              rw [hlist] at hknown hask
              rcases askFor_opens fact s with ⟨finding, hresult⟩ | ⟨pending, hresult⟩
              · exact absurd hresult (hknown finding)
              · exact absurd hresult (hask pending)

/-- An attempt to settle a goal that leaves all as it was has only considered
rules, unless nothing is known of the goal.  A rule that fires gives the fact a
value that it did not have. -/
theorem considered_solve (hstate : (solve kb goal s).state = s)
    (hknown : ∀ finding, (solve kb goal s).result ≠ .ok (.unknown finding))
    (hask : ∀ pending, (solve kb goal s).result ≠ .ok (.ask pending)) :
    ∀ event ∈ (solve kb goal s).trace, event.IsConsidered := by
  unfold solve at hstate hknown hask ⊢
  cases hgoal : s.facts.resolve goal with
  | error fault => exact List.forall_mem_nil _
  | ok resolution =>
      rw [hgoal, Run.andThen_of_ok (r := Run.lift _ _) rfl] at hstate hknown hask
      rw [Run.andThen_of_ok (r := Run.lift _ _) rfl]
      cases resolution with
      | unknown fact => exact absurd rfl (hknown _)
      | literal fact =>
          cases hget : s.facts.get? fact with
          | some record =>
              simp only [Run.lift, hget]
              exact List.forall_mem_nil _
          | none =>
              simp only [Run.lift, hget] at hstate hknown hask ⊢
              exact considered_settle hget hstate hknown hask

/-- The turn that has failed fails again, at the same place. -/
theorem turn_standstill
    (h : (turn kb limits goal s).result = .error (.circular chain)) :
    (turn kb limits goal (turn kb limits goal s).state).StuckAt (.circular chain)
      (turn kb limits goal s).state := by
  obtain ⟨hresult, hstate⟩ : (turn kb limits goal (turn kb limits goal s).state).SameEnd
      (turn kb limits goal s) := turn_again h
  rw [h] at hresult
  generalize (turn kb limits goal s).state = t at hresult hstate ⊢
  obtain ⟨hsolved, hask, ⟨fact, hfull⟩ | ⟨htrace, hknown⟩⟩ := turn_of_error hresult
  · exact nomatch hfull
  · refine ⟨hresult, hstate, ?_⟩
    rw [htrace]
    exact considered_solve (hsolved.symm.trans hstate) hknown hask

/-- A call that has failed in a turn fails in that turn again. -/
theorem backwardFor_standstill {rounds : Nat} : ∀ {s : Consultation} {rounds' : Nat},
    rounds ≤ rounds' →
      (backwardFor kb limits rounds s).result = .error (.circular chain) →
      (backwardFor kb limits rounds' (backwardFor kb limits rounds s).state).StuckAt
        (.circular chain) (backwardFor kb limits rounds s).state := by
  induction rounds with
  | zero =>
      intro s rounds' _ h
      cases hagenda : s.agenda with
      | nil =>
          rw [backwardFor_of_nil 0 hagenda] at h
          exact nomatch h
      | cons goal rest =>
          rw [backwardFor_zero hagenda] at h
          exact nomatch h
  | succ rounds ih =>
      intro s rounds' hrounds h
      obtain ⟨more, rfl⟩ : ∃ more, rounds' = more + 1 := ⟨rounds' - 1, by omega⟩
      cases hagenda : s.agenda with
      | nil =>
          rw [backwardFor_of_nil _ hagenda] at h
          exact nomatch h
      | cons goal rest =>
          cases hresult : (turn kb limits goal s).result with
          | error fault =>
              rw [backwardFor_of_error rounds hagenda hresult] at h ⊢
              cases h
              -- The goal is still in front, and its turn fails again.
              have hagenda' := (agenda_turn_of_error hresult).trans hagenda
              have hstuck := turn_standstill hresult
              show (backwardFor kb limits (more + 1)
                (turn kb limits goal s).state).StuckAt _ _
              rw [backwardFor_of_error more hagenda' hstuck.result]
              exact ⟨rfl, hstuck.state, hstuck.trace⟩
          | ok handed =>
              cases handed with
              | some pending =>
                  rw [backwardFor_of_some rounds hagenda hresult] at h
                  exact nomatch h
              | none =>
                  rw [backwardFor_of_none rounds hagenda hresult] at h ⊢
                  exact ih (Nat.le_of_succ_le hrounds) h

end

/-! ## Forward chaining -/

/-- A call that has failed in a sweep fails in that sweep again. -/
theorem forwardFor_standstill {limits : Limits} {chain : List String} {rounds : Nat} :
    ∀ {s : Consultation} {rounds' : Nat}, rounds ≤ rounds' →
      (forwardFor limits rounds s).result = .error (.circular chain) →
        (forwardFor limits rounds' (forwardFor limits rounds s).state).StuckAt
          (.circular chain) (forwardFor limits rounds s).state := by
  induction rounds with
  | zero =>
      intro s rounds' _ h
      exact nomatch h
  | succ rounds ih =>
      intro s rounds' hrounds h
      obtain ⟨more, rfl⟩ : ∃ more, rounds' = more + 1 := ⟨rounds' - 1, by omega⟩
      cases hending : (sweep s.facts s.questions s.rules).ending with
      | error fault =>
          rw [forwardFor_of_error limits rounds hending] at h ⊢
          cases h
          obtain ⟨hending', hrules, htrace⟩ := sweep_again hending
          show (forwardFor limits (more + 1)
            { s with rules := (sweep s.facts s.questions s.rules).rules }).StuckAt _ _
          rw [forwardFor_of_error limits more hending']
          refine ⟨rfl, congrArg (fun left => { s with rules := left }) hrules, ?_⟩
          show ∀ event ∈ (sweep s.facts s.questions _).trace, event.IsConsidered
          rw [htrace]
          exact nofun
      | ok fires =>
          cases fires with
          | none =>
              obtain ⟨outcome, houtcome⟩ :=
                exists_forwardFor_of_none limits rounds hending
              exact nomatch houtcome.symm.trans h
          | some fires =>
              rw [forwardFor_of_some limits rounds hending,
                Run.andThen_of_ok (r := Run.ok () _ _) rfl] at h ⊢
              exact ih (Nat.le_of_succ_le hrounds) h

/-! ## Calls -/

/-- A call that fails for a circular chain of variables leaves a state in which
every further one fails for the same chain and leaves the same state.  Nothing
fires, leaves, is asked for or is put onto the agenda any more: rules are
considered, and that is all. -/
theorem circular_for_good {call : Consultation → Run Outcome}
    (hcall : (∃ limits, call = forward limits) ∨
      (∃ kb limits, call = backward kb limits) ∨
      ∃ (kb : KnowledgeBase) (limits : Limits), call = kb.step limits)
    {s : Consultation} {chain : List String}
    (h : (call s).result = .error (.circular chain)) :
    (call (call s).state).StuckAt (.circular chain) (call s).state := by
  rcases hcall with ⟨limits, rfl⟩ | ⟨kb, limits, rfl⟩ | ⟨kb, limits, rfl⟩
  · exact forwardFor_standstill (Nat.le_refl _) h
  · exact backwardFor_standstill (Nat.le_refl _) h
  · cases hstrategy : kb.strategy with
    | forward =>
        simp only [KnowledgeBase.step_eq_forward hstrategy] at h ⊢
        exact forwardFor_standstill (Nat.le_refl _) h
    | backward =>
        simp only [KnowledgeBase.step_eq_backward hstrategy] at h ⊢
        exact backwardFor_standstill (Nat.le_refl _) h

/-- The ticket is used when the journey is over. -/
def arrival : Rule where
  condition := .equals "journey" "over"
  consequences := KeyMap.empty.insert "ticket" "used"

/-- In fine weather the journey is what the train is; this is what the line is, which
is what the train is. -/
def journeyKnowledge : KnowledgeBase where
  rules := [
    { condition := .equals "weather" "snow",
      consequences := KeyMap.empty.insert "journey" "over" },
    { condition := .equals "weather" "fine",
      consequences := KeyMap.empty.insert "journey" "$train" },
    arrival]
  goals := [{ name := "journey" }]
  facts := ((KeyMap.empty.insert "weather" "fine").insert "train" "$line").insert
    "line" "$train"

/-- Backward chaining fails in the turn in which the rule on fine weather has fired,
with the journey still pursued.  Forward chaining has ruled out the first rule and
fired the second before it fails on the third.  Neither gets any further. -/
theorem journey_for_good :
    ((backward journeyKnowledge {} journeyKnowledge.start).state.facts.contains
      "journey" = true ∧
      (backward journeyKnowledge {} journeyKnowledge.start).state.agenda = ["journey"] ∧
      (backward journeyKnowledge {}
        (backward journeyKnowledge {} journeyKnowledge.start).state).StuckAt
          (.circular ["$train", "$line", "$train"])
          (backward journeyKnowledge {} journeyKnowledge.start).state) ∧
    (forward {} journeyKnowledge.start).state.rules = [arrival] ∧
      (forward {} (forward {} journeyKnowledge.start).state).StuckAt
        (.circular ["$train", "$line", "$train"])
          (forward {} journeyKnowledge.start).state := by
  have hback : (backward journeyKnowledge {} journeyKnowledge.start).result =
      .error (.circular ["$train", "$line", "$train"]) := by decide +kernel
  have hforth : (forward {} journeyKnowledge.start).result =
      .error (.circular ["$train", "$line", "$train"]) := by decide +kernel
  have hstuck := circular_for_good (.inr (.inl ⟨journeyKnowledge, {}, rfl⟩)) hback
  have hstuck' := circular_for_good (.inl ⟨{}, rfl⟩) hforth
  exact ⟨⟨by decide +kernel, by decide +kernel, hstuck⟩, by decide +kernel, hstuck'⟩

end Consult
