import Consult.Chaining.Backward
import Consult.Chaining.Forward

/-!
# Engines

An engine holds a knowledge base that has been checked. It advances
consultations but is never changed by them, so one engine serves any number of
them.

## Main results

* `questions_step` — a step that hands out a question withdraws it, so that a dialogue
  ends.
-/

namespace Consult

/-- Advances a consultation until it is decided or needs an answer. The knowledge base
need not have been checked. -/
def KnowledgeBase.step (kb : KnowledgeBase) (limits : Limits) (s : Consultation) :
    Run Outcome :=
  match kb.strategy with
  | .backward => backward kb limits s
  | .forward => forward limits s

/-- A checked knowledge base and what a chaining call is allowed. -/
structure Engine where
  knowledge : KnowledgeBase
  limits : Limits := {}
  checked : knowledge.check = .ok ()

/-- A dialogue that has come to an end: the questions asked and how it ended. -/
structure Dialogue where
  asked : List Pending
  run : Run Unit

namespace Engine

/-- An engine for a knowledge base, unless a group in it asks for more
conditions than it has. -/
def ofKnowledge? (kb : KnowledgeBase) (limits : Limits) : Except Fault Engine :=
  match h : kb.check with
  | .ok () => return ⟨kb, limits, h⟩
  | .error fault => throw fault

/-- A new consultation. -/
def start (e : Engine) : Consultation := e.knowledge.start

/-- Advances a consultation until it is decided or needs an answer. -/
def step (e : Engine) (s : Consultation) : Run Outcome := e.knowledge.step e.limits s

/-- Records the option of that number as the answer to a question. -/
def answer (pending : Pending) (index : Nat) (s : Consultation) : Run (List Conflict) :=
  match pending.question.options[index]? with
  | some choice =>
    let (s, conflicts) := s.applyAnswer pending.question choice
    .ok conflicts s []
  | none => .fail (.noSuchOption index pending.question.options.length) s []

/-- Leaves a question unanswered. It was withdrawn when it was handed out. -/
def skip (pending : Pending) (s : Consultation) : Run Unit :=
  .ok () s [.skipped pending.question.description pending.skippable]

/-- Answers or skips a question. -/
def reply (pending : Pending) (index : Option Nat) (s : Consultation) : Run Unit :=
  match index with
  | some index => (answer pending index s).andThen fun _ s => .ok () s []
  | none => skip pending s

/-- A step that hands out a question withdraws it. -/
theorem questions_step {e : Engine} {s : Consultation} {p : Pending}
    (h : (e.step s).result = .ok (.pending p)) :
    (e.step s).state.questions.length < s.questions.length := by
  have post : (e.step s).Post (QuestionsWithin s.questions.length Outcome.Asks) := by
    unfold step KnowledgeBase.step
    split
    · exact backward_post _ _ s
    · exact forward_post _ s
  exact post.2 _ h trivial

theorem questions_reply (pending : Pending) (index : Option Nat) (s : Consultation) :
    (reply pending index s).state.questions = s.questions := by
  unfold reply
  split
  · next i =>
    unfold answer
    split <;> rfl
  · rfl

/-- Advances a consultation to its end. `choose` is told how many questions have
been asked and which one is open, and says which option is the answer, or that
the question is skipped. -/
def converse (e : Engine) (choose : Nat → Pending → Except Fault (Option Nat))
    (asked : Nat) (s : Consultation) : Dialogue :=
  let stepped := e.step s
  match _asks : stepped.result with
  | .error fault => ⟨[], .fail fault stepped.state stepped.trace⟩
  | .ok .decided => ⟨[], .ok () stepped.state stepped.trace⟩
  | .ok (.pending pending) =>
    match choose asked pending with
    | .error fault => ⟨[pending], .fail fault stepped.state stepped.trace⟩
    | .ok index =>
      let replied := reply pending index stepped.state
      match replied.result with
      | .error fault =>
          ⟨[pending], .fail fault replied.state (stepped.trace ++ replied.trace)⟩
      | .ok () =>
        let rest := e.converse choose (asked + 1) replied.state
        ⟨pending :: rest.asked,
          ⟨rest.run.result, rest.run.state, stepped.trace ++ replied.trace ++
            rest.run.trace⟩⟩
termination_by s.questions.length
decreasing_by
  rw [questions_reply]
  exact questions_step _asks

/-- What a consultation says about each goal. -/
def conclusions (e : Engine) (s : Consultation) : Except Fault (List Conclusion) :=
  e.knowledge.goals.mapM (·.conclude s.facts)

end Engine

end Consult
