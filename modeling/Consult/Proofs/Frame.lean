import Consult.Engine
import Consult.Proofs.Sweep
import Consult.Proofs.Turn

/-!
# What no call takes back

Whatever a call does, and whether it succeeds or fails: records stay as they are,
rules and questions are only taken out, and the questions taken out are those that
the call hands out.  `Continues` says so of the states before and after, and
every call is shown to lead from a state to one that continues it.

## Main results

* `turn_continues`, `backwardFor_continues` — backward chaining takes nothing back.
* `Sweeps.continues` — neither does forward chaining.
* `KnowledgeBase.step_continues`, `Engine.reply_continues` — nor does a step or a reply.
-/

namespace Consult

/-! ## Continuing a state -/

/-- `s'.Continues s asked`: the records of `s` are those of `s'`, which may have
more; the rules left in `s'` are left in `s`, in the same order; and of the
questions left in `s` all are left but those asked. -/
structure Consultation.Continues (s' s : Consultation) (asked : List Question) :
    Prop where
  keeps : s'.facts.Keeps s.facts
  rules : s'.rules.Sublist s.rules
  questions : Remains s.questions asked s'.questions

/-- The question that a result hands out, if any. -/
def questionsOf {α : Type} (question? : α → Option Question) :
    Except Fault α → List Question
  | .ok a => (question? a).toList
  | .error _ => []

/-- The question that an outcome hands out, if any. -/
def Outcome.question? : Outcome → Option Question
  | .pending handed => some handed.question
  | .decided => none

/-- The question that a solution hands out, if any. -/
def Solution.question? : Solution → Option Question
  | .ask handed => some handed.question
  | _ => none

namespace Consultation.Continues

variable {s s' s'' : Consultation} {asked asked' : List Question}

theorem refl (s : Consultation) : s.Continues s [] := ⟨.refl _, .refl _, .refl _⟩

theorem trans (h : s'.Continues s asked) (h' : s''.Continues s' asked') :
    s''.Continues s (asked ++ asked') where
  keeps := h'.keeps.trans h.keeps
  rules := h'.rules.trans h.rules
  questions := h.questions.trans h'.questions

/-- Rules may be taken out. -/
theorem of_sublist {left : List Rule} (hleft : left.Sublist s.rules) :
    Continues { s with rules := left } s [] :=
  ⟨.refl _, hleft, .refl _⟩

/-- An operation that only records facts takes nothing back. -/
theorem of_apply (s : Consultation) (consequences : Consequences) (reason : Reason) :
    (s.apply consequences reason).1.Continues s [] :=
  ⟨keeps_apply _ _ _, .refl _, .refl _⟩

/-- The first question that settles a fact is taken out when it is asked. -/
theorem of_withdraw {fact : String} {question : Question}
    (h : s.questions.find? (·.infers fact) = some question) :
    (s.withdraw fact).Continues s [question] :=
  ⟨.refl _, .refl _, .eraseP h⟩

end Consultation.Continues

theorem Fired.continues {kb : KnowledgeBase} {s s' : Consultation} (h : Fired kb s s') :
    s'.Continues s [] := by
  cases h with
  | none => exact .refl s
  | rule _ _ _ => exact .of_apply _ _ _

/-! ## Backward chaining -/

theorem turn_continues (kb : KnowledgeBase) (limits : Limits) (goal : String)
    (s : Consultation) :
    (turn kb limits goal s).Post fun x s' =>
      s'.Continues s (questionsOf (Option.map Pending.question) x) := by
  refine (turn_cases kb limits goal s).mono ?_
  intro x t hturn
  -- What is on the agenda makes no difference.
  have hagenda {u v : Consultation} (h : Fired kb s u) (hfacts : v.facts = u.facts)
      (hrules : v.rules = u.rules) (hquestions : v.questions = u.questions) :
      v.Continues s [] :=
    ⟨hfacts ▸ h.continues.keeps, hrules ▸ h.continues.rules,
      hquestions ▸ h.continues.questions⟩
  cases hturn with
  | circular _ => exact .refl s
  | circularRule _ _ => exact .refl s
  | circularValue hfired _ _ _ => exact hfired.continues
  | overflow hwants _ _ => exact hwants.fired.continues
  | asked _ _ hquestion => exact .of_withdraw hquestion
  | pushed hwants _ _ => exact hagenda hwants.fired rfl rfl rfl
  | dropped _ _ => exact hagenda .none rfl rfl rfl
  | stalled hfired _ _ _ _ => exact hagenda hfired rfl rfl rfl
  | assumed _ _ _ _ => exact ⟨Consultation.keeps_assumeUndefined _ _, .refl _, .refl _⟩
  | concluded hfired _ _ _ => exact hagenda hfired rfl rfl rfl

theorem solve_continues (kb : KnowledgeBase) (goal : String) (s : Consultation) :
    (solve kb goal s).Post fun x s' => s'.Continues s
      (questionsOf Solution.question? x) := by
  refine (solve_cases kb goal s).mono ?_
  intro x t hattempt
  cases hattempt with
  | circular _ => exact .refl s
  | circularRule _ _ => exact .refl s
  | blocked _ => exact .refl s
  | known hfired _ _ => exact hfired.continues
  | undecided _ _ _ => exact .refl s
  | asked _ _ hquestion => exact .of_withdraw hquestion

theorem backwardFor_continues (kb : KnowledgeBase) (limits : Limits) (rounds : Nat) :
    ∀ s, (backwardFor kb limits rounds s).Post fun x s' =>
      s'.Continues s (questionsOf Outcome.question? x) := by
  refine backwardFor_post_of_turn
    (P := fun _ s x s' => s'.Continues s (questionsOf Outcome.question? x))
      ?_ ?_ ?_ rounds
  · exact fun _ s _ => .refl s
  · exact fun s _ => .refl s
  · intro _ s goal rest _
    refine (turn_continues kb limits goal s).mono ?_
    rintro (fault | _ | pending) t ht
    · exact ht
    · exact fun _ _ hrest => ht.trans hrest
    · exact ht

/-! ## Forward chaining -/

theorem Sweeps.continues {limits : Limits} {rounds : Nat} {s s' : Consultation}
    {x : Except Fault Outcome} (h : Sweeps limits rounds s x s') :
    s'.Continues s (questionsOf Outcome.question? x) := by
  induction h with
  | limit s => exact .refl s
  | circular hleft _ _ _ => exact .of_sublist hleft.sublist
  | decided hleft _ _ => exact .of_sublist hleft.sublist
  | asked hleft _ _ hquestion =>
      exact (Consultation.Continues.of_sublist hleft.sublist).trans
        (.of_withdraw hquestion)
  | @fired _ _ _ rule finding _ _ _ hleft _ _ _ _ ih =>
      have hfirst := (Consultation.Continues.of_sublist hleft.sublist).trans
        (.of_apply _ rule.consequences (.inferred rule finding))
      exact hfirst.trans ih

/-! ## Steps and replies -/

namespace KnowledgeBase

variable {kb : KnowledgeBase}

theorem step_eq_backward (hback : kb.strategy = .backward) (limits : Limits)
    (s : Consultation) :
    kb.step limits s = backwardFor kb limits limits.maxSteps s := by
  unfold step
  rw [hback]
  rfl

theorem step_eq_forward (hforth : kb.strategy = .forward) (limits : Limits)
    (s : Consultation) : kb.step limits s = forwardFor limits limits.maxSteps s := by
  unfold step
  rw [hforth]
  rfl

theorem step_continues (kb : KnowledgeBase) (limits : Limits) (s : Consultation) :
    (kb.step limits s).Post fun x s' =>
      s'.Continues s (questionsOf Outcome.question? x) := by
  unfold step
  split
  · exact backwardFor_continues _ _ _ s
  · exact (forwardFor_cases _ _ s).mono fun _ _ h => h.continues

end KnowledgeBase

namespace Engine

theorem answer_continues (pending : Pending) (index : Nat) (s : Consultation) :
    (answer pending index s).state.Continues s [] := by
  unfold answer
  split
  · exact .of_apply _ _ _
  · exact .refl s

/-- A reply leaves the state as it is, or records an option that was chosen. -/
theorem reply_cases (pending : Pending) (index : Option Nat) (s : Consultation) :
    (reply pending index s).state = s ∨
      ∃ choice ∈ pending.question.options,
        (reply pending index s).state = (s.applyAnswer pending.question choice).1 := by
  cases index with
  | none => exact .inl rfl
  | some index =>
      unfold reply answer
      dsimp only
      split
      · next choice hchoice => exact .inr ⟨choice, List.mem_of_getElem? hchoice, rfl⟩
      · exact .inl rfl

theorem reply_continues (pending : Pending) (index : Option Nat) (s : Consultation) :
    (reply pending index s).state.Continues s [] := by
  rcases reply_cases pending index s with hsame | ⟨choice, -, hchosen⟩
  · rw [hsame]
    exact .refl s
  · rw [hchosen]
    exact .of_apply _ _ _

end Engine

end Consult
