import Consult.Proofs.Course

/-!
# A consultation takes nothing back

No call takes anything back, so no sequence of calls does.  A consultation that is
only stepped, answered and skipped has therefore asked each question at most once;
and it never pursues a name twice at the same time, since a fact is put on the
agenda only if it is not there.

## Main results

* `Reachable.continues` — the questions asked are those that are not left.
* `Course.nodup_agenda` — no name is on the agenda twice.
* `nothing_taken_back` — sequences of calls, and consultations.
-/

namespace Consult

/-! ## Consultations -/

namespace KnowledgeBase

open Engine (Progress Offers handedOut answer_continues reply_cases reply_continues
  map_question_handedOut)

variable {kb : KnowledgeBase} {limits : Limits}

/-- In a consultation, the questions handed out are those that are not left. -/
theorem Reachable.continues {p : Progress} (h : kb.Reachable limits p) :
    p.state.Continues kb.start (p.asked.map Pending.question) := by
  induction h with
  | refl => exact .refl _
  | @tail p p' _ hadvance ih =>
      cases hadvance with
      | step =>
          have hstep := ih.trans (step_continues kb limits p.state)
          refine ⟨hstep.keeps, hstep.rules, hstep.questions.of_perm ?_⟩
          rw [List.map_append, map_question_handedOut]
          exact List.perm_append_comm
      | @answer pending _ index =>
          have hanswer := ih.trans (answer_continues pending index p.state)
          rwa [List.append_nil] at hanswer
      | skip _ => exact ih

/-! ### The agenda -/

/-- A turn keeps the agenda, takes the goal in front off it, or puts a fact that
is not on it in front. -/
theorem nodup_turn (kb : KnowledgeBase) (limits : Limits) (goal : String)
    {s : Consultation} (hnodup : s.agenda.Nodup) :
    (turn kb limits goal s).state.agenda.Nodup := by
  show (turn kb limits goal s).Post fun _ s' => s'.agenda.Nodup
  have hpop {u : Consultation} (h : Fired kb s u) : u.pop.agenda.Nodup :=
    (h.agenda ▸ hnodup : u.agenda.Nodup).tail
  refine (turn_cases kb limits goal s).mono ?_
  intro x s' hturn
  cases hturn with
  | circular _ => exact hnodup
  | circularRule _ _ => exact hnodup
  | circularValue hfired _ _ _ => exact hfired.agenda ▸ hnodup
  | overflow hwants _ _ => exact hwants.fired.agenda ▸ hnodup
  | asked _ _ _ => exact hnodup
  | pushed hwants hnew _ =>
      exact List.nodup_cons.2 ⟨hnew, hwants.fired.agenda ▸ hnodup⟩
  | dropped _ _ => exact hpop .none
  | stalled hfired _ _ _ _ => exact hpop hfired
  | assumed _ _ _ _ => exact hpop .none
  | concluded hfired _ _ _ => exact hpop hfired

theorem Moves.nodup_agenda {s s' : Consultation} (h : kb.Moves limits s s')
    (hnodup : s.agenda.Nodup) :
    s'.agenda.Nodup := by
  cases h with
  | turn _ _ => exact nodup_turn _ _ _ hnodup
  | sweep _ _ =>
      obtain ⟨left, -, hsame | ⟨rule, -, finding, -, -, hfired⟩⟩ := swept_cases s
      · rw [hsame]
        exact hnodup
      · rw [hfired]
        exact hnodup
  | withdraw _ _ _ => exact hnodup
  | @reply pending _ index _ =>
      rcases reply_cases pending index s with hsame | ⟨choice, -, hchosen⟩
      · rw [hsame]
        exact hnodup
      · rw [hchosen]
        exact hnodup

/-- Nothing is ever pursued twice at the same time. -/
theorem Course.nodup_agenda {s : Consultation} (h : kb.Course limits kb.start s) :
    s.agenda.Nodup := by
  induction h with
  | refl => exact nodup_seed _
  | tail _ hmove ih => exact hmove.nodup_agenda ih

end KnowledgeBase

/-! ### Dialogues -/

namespace Engine

/-- A dialogue asks the questions that are not left when it ends. -/
theorem converse_continues (e : Engine)
    (choose : Nat → Pending → Except Fault (Option Nat)) (asked : Nat)
    (s : Consultation) :
    (e.converse choose asked s).run.state.Continues s
      ((e.converse choose asked s).asked.map Pending.question) := by
  have hstep (s : Consultation) {x : Except Fault Outcome}
      (hresult : (e.step s).result = x) :
      (e.step s).state.Continues s (questionsOf Outcome.question? x) :=
    hresult ▸ e.knowledge.step_continues e.limits s
  -- The step fails or decides all; else the caller fails, the reply
  -- fails, or it goes on.
  fun_induction converse e choose asked s with
  | case1 _ s _ _ hresult => exact hstep s hresult
  | case2 _ s _ hresult => exact hstep s hresult
  | case3 _ s _ _ hresult => exact hstep s hresult
  | case4 _ s _ pending hresult index =>
      exact (hstep s hresult).trans (reply_continues pending index _)
  | case5 _ s _ pending hresult index _ _ _ _ ih =>
      exact (hstep s hresult).trans ((reply_continues pending index _).trans ih)

end Engine

/-! ## Whatever a caller does -/

/-- All that a caller can do to a consultation. -/
inductive Call where
  | step (kb : KnowledgeBase) (limits : Limits)
  | backward (kb : KnowledgeBase) (limits : Limits)
  | forward (limits : Limits)
  | solve (kb : KnowledgeBase) (goal : String)
  | answer (pending : Pending) (index : Nat)
  | skip (pending : Pending)
  | define (fact value : String)
  | assumeUndefined (fact : String)
  | apply (consequences : Consequences) (reason : Reason)
  | applyRule (rule : Rule) (finding : Finding)
  | applyAnswer (question : Question) (choice : Choice)
  | push (name : String)
  | pop

namespace Call

/-- The questions that a call hands out and the state that it leaves, whether it
succeeds or fails. -/
def perform (s : Consultation) : Call → List Question × Consultation
  | step kb limits =>
    (questionsOf Outcome.question? (kb.step limits s).result, (kb.step limits s).state)
  | backward kb limits =>
    (questionsOf Outcome.question? (Consult.backward kb limits s).result,
      (Consult.backward kb limits s).state)
  | forward limits =>
    (questionsOf Outcome.question? (Consult.forward limits s).result,
      (Consult.forward limits s).state)
  | solve kb goal =>
    (questionsOf Solution.question? (Consult.solve kb goal s).result,
      (Consult.solve kb goal s).state)
  | answer pending index => ([], (Engine.answer pending index s).state)
  | skip pending => ([], (Engine.skip pending s).state)
  | define fact value => ([], (s.define fact value).1)
  | assumeUndefined fact => ([], (s.assumeUndefined fact).1)
  | apply consequences reason => ([], (s.apply consequences reason).1)
  | applyRule rule finding => ([], (s.applyRule rule finding).1)
  | applyAnswer question choice => ([], (s.applyAnswer question choice).1)
  | push name => ([], s.push name)
  | pop => ([], s.pop)

/-- The same for one call after the other. -/
def performAll (s : Consultation) : List Call → List Question × Consultation
  | [] => ([], s)
  | call :: calls =>
    let (asked, s) := call.perform s
    let (asked', s) := performAll s calls
    (asked ++ asked', s)

/-- No call takes anything back. -/
theorem continues (call : Call) (s : Consultation) :
    (call.perform s).2.Continues s (call.perform s).1 := by
  cases call with
  | step kb limits => exact kb.step_continues limits s
  | backward kb limits => exact backwardFor_continues kb limits _ s
  | forward limits => exact (forwardFor_cases limits _ s).continues
  | solve kb goal => exact solve_continues kb goal s
  | answer pending index => exact Engine.answer_continues pending index s
  | skip _ => exact .refl s
  | define _ _ => exact .of_apply s _ _
  | assumeUndefined _ => exact .of_apply s _ _
  | apply _ _ => exact .of_apply s _ _
  | applyRule _ _ => exact .of_apply s _ _
  | applyAnswer _ _ => exact .of_apply s _ _
  | push _ => exact ⟨.refl _, .refl _, .refl _⟩
  | pop => exact ⟨.refl _, .refl _, .refl _⟩

theorem performAll_continues (calls : List Call) :
    ∀ s, (performAll s calls).2.Continues s (performAll s calls).1 := by
  induction calls with
  | nil => exact .refl
  | cons call calls ih =>
      intro s
      exact (call.continues s).trans (ih _)

end Call

/-- Whatever calls are made, nothing is taken back, and a question leaves exactly
when it is handed out.  In a consultation the questions handed out and those left
are therefore the questions of the knowledge base, a dialogue asks no more of
them than are left, and at no moment is a name on the agenda twice. -/
theorem nothing_taken_back :
    (∀ (calls : List Call) (s : Consultation),
      (Call.performAll s calls).2.Continues s (Call.performAll s calls).1) ∧
    ∀ (e : Engine) (p : Engine.Progress), e.Reachable p →
      (p.asked.map Pending.question ++ p.state.questions).Perm e.knowledge.questions ∧
      (∀ choose asked, p.asked.length + (e.converse choose asked p.state).asked.length ≤
        e.knowledge.questions.length) ∧
      ∀ s, e.Course p.state s → s.agenda.Nodup := by
  refine ⟨Call.performAll_continues, fun e p h => ?_⟩
  have hquestions := h.continues.questions
  refine ⟨hquestions.perm, fun choose asked => ?_, fun s hcourse => ?_⟩
  · have hbefore := hquestions.length_eq
    have hdialogue := (e.converse_continues choose asked p.state).questions.length_eq
    rw [List.length_map] at hbefore hdialogue
    have hstart : e.knowledge.start.questions.length = e.knowledge.questions.length :=
      rfl
    omega
  · exact KnowledgeBase.Course.nodup_agenda (h.course.trans hcourse)

/-- What the weather is like. -/
def weatherQuestion : Question where
  description := "Does it rain?"
  options := [⟨"It does", KeyMap.empty.insert "weather" "rain"⟩,
    ⟨"It does not", KeyMap.empty.insert "weather" "dry"⟩]

/-- What to take along depends on the weather, which can be asked for, and on the
wind, which cannot. -/
def outingEngine : Engine where
  knowledge :=
    { strategy := .forward
      rules := [
        { condition := .equals "weather" "dry"
          consequences := KeyMap.empty.insert "hat" "yes" },
        { condition := .equals "wind" "strong"
          consequences := KeyMap.empty.insert "kite" "yes" },
        { condition := .equals "weather" "rain"
          consequences := KeyMap.empty.insert "umbrella" "yes" }]
      questions := [weatherQuestion]
      facts := KeyMap.empty.insert "season" "autumn" }
  limits := { maxSteps := 10 }
  checked := by rfl

/-- The only question about the outing, when it is handed out. -/
def weatherPending : Pending := ⟨weatherQuestion, false⟩

/-- The outing when the question has been asked and it is known that it rains. -/
def outingInRain : Engine.Progress where
  state :=
    (Engine.answer weatherPending 0 (outingEngine.step outingEngine.start).state).state
  asked := [weatherPending]

theorem reachable_outingInRain : outingEngine.Reachable outingInRain := by
  have hpending : (outingEngine.step outingEngine.start).result =
      .ok (.pending weatherPending) := rfl
  have hasked : outingEngine.Reachable
      ⟨(outingEngine.step outingEngine.start).state,
        Engine.handedOut (outingEngine.step outingEngine.start).result ++ []⟩ :=
    .single (.step ⟨outingEngine.start, []⟩)
  rw [hpending] at hasked
  exact hasked.tail (.answer (List.mem_singleton.2 rfl) 0)

/-- On the outing the only question has been asked, and no other will be. -/
theorem outing_asks_once :
    outingInRain.asked.map Pending.question = outingEngine.knowledge.questions ∧
      outingInRain.state.questions = [] ∧ outingInRain.state.agenda.Nodup ∧
      ∀ choose asked, (outingEngine.converse choose asked outingInRain.state).asked =
        [] := by
  obtain ⟨-, hdialogue, hagenda⟩ :=
    nothing_taken_back.2 outingEngine outingInRain reachable_outingInRain
  refine ⟨rfl, rfl, hagenda _ .refl, fun choose asked => ?_⟩
  have hbound := hdialogue choose asked
  have hone : outingInRain.asked.length = 1 ∧
      outingEngine.knowledge.questions.length = 1 :=
    ⟨rfl, rfl⟩
  exact List.length_eq_zero_iff.1 (by omega)

end Consult
