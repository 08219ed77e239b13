import Consult.Trace

/-!
# Running a consultation

The vocabulary of chaining. A call may fail, but the state that it has reached
and the events that it has left are there all the same, so a `Run` holds all
three.

## Main results

* `Run.Post.andThen` — what holds after a run that goes on where another one ended.
-/

namespace Consult

/-- A question that has been handed out. -/
structure Pending where
  question : Question
  /-- Whether something else may still settle the same fact. -/
  skippable : Bool
deriving DecidableEq

/-- What chaining comes to. -/
inductive Outcome where
  /-- Nothing is left to do. -/
  | decided
  /-- Nothing can be done before the question is answered or skipped. -/
  | pending (pending : Pending)
deriving DecidableEq

/-- What an attempt to settle one goal comes to. -/
inductive Solution where
  /-- The goal has a value. -/
  | known (record : Record)
  /-- The goal waits for what the finding says. -/
  | unknown (finding : Finding)
  /-- Only the question can settle the goal. -/
  | ask (pending : Pending)
deriving DecidableEq

/-- What a chaining call is allowed. -/
structure Limits where
  maxSteps : Nat := 100000
  maxAgenda : Nat := 1000
deriving DecidableEq, Repr

/-- The result of a call, with the state that it leaves and the events on the way. -/
structure Run (α : Type) where
  result : Except Fault α
  state : Consultation
  trace : List Event

namespace Run

variable {α β : Type}

/-- A run that ends with a result. -/
def ok (a : α) (s : Consultation) (trace : List Event) : Run α := ⟨.ok a, s, trace⟩

/-- A run that fails. -/
def fail (fault : Fault) (s : Consultation) (trace : List Event) : Run α :=
  ⟨.error fault, s, trace⟩

/-- A computation that neither changes the state nor leaves an event. -/
def lift (x : Except Fault α) (s : Consultation) : Run α := ⟨x, s, []⟩

/-- Goes on where a run ended, unless it failed. -/
def andThen (r : Run α) (next : α → Consultation → Run β) : Run β :=
  match r.result with
  | .ok a =>
    let r' := next a r.state
    ⟨r'.result, r'.state, r.trace ++ r'.trace⟩
  | .error fault => fail fault r.state r.trace

theorem andThen_of_ok {r : Run α} {a : α} (h : r.result = .ok a)
    (next : α → Consultation → Run β) :
    r.andThen next = ⟨(next a r.state).result, (next a r.state).state,
      r.trace ++ (next a r.state).trace⟩ := by
  unfold andThen
  rw [h]

theorem andThen_of_error {r : Run α} {fault : Fault} (h : r.result = .error fault)
    (next : α → Consultation → Run β) :
    r.andThen next = fail fault r.state r.trace := by
  unfold andThen
  rw [h]

/-- A run to which nothing is added but another result. -/
theorem andThen_ok (r : Run α) (b : β) :
    (r.andThen fun _ s => ok b s []) = ⟨r.result.map fun _ => b, r.state, r.trace⟩ := by
  cases h : r.result with
  | ok a =>
    rw [andThen_of_ok h]
    simp only [ok, List.append_nil, Except.map]
  | error fault =>
    rw [andThen_of_error h]
    rfl

/-- What holds of the result of a run and the state that it leaves. -/
def Post (r : Run α) (P : Except Fault α → Consultation → Prop) : Prop :=
  P r.result r.state

/-- What holds after a run that goes on where another one ended. -/
theorem Post.andThen {r : Run α} {next : α → Consultation → Run β}
    {Q : Except Fault α → Consultation → Prop}
    {P : Except Fault β → Consultation → Prop} (h : r.Post Q)
    (ok : ∀ a s, Q (.ok a) s → (next a s).Post P)
    (fail : ∀ fault s, Q (.error fault) s → P (.error fault) s) :
    (r.andThen next).Post P := by
  cases hr : r.result with
  | ok a =>
    have : Q (.ok a) r.state := hr ▸ h
    simpa [Post, Run.andThen, hr] using ok a r.state this
  | error fault =>
    have : Q (.error fault) r.state := hr ▸ h
    simpa [Post, Run.andThen, hr, Run.fail] using fail fault r.state this

theorem Post.mono {r : Run α} {P Q : Except Fault α → Consultation → Prop}
    (h : r.Post P) (himp : ∀ x s, P x s → Q x s) : r.Post Q :=
  himp r.result r.state h

end Run

namespace Consultation

/-- Fires a rule. -/
def fire (s : Consultation) (rule : Rule) (finding : Finding) :
    Consultation × List Event :=
  let (s', conflicts) := s.applyRule rule finding
  (s', conflicts.map (.contradicted rule))

/-- Takes out the first question that gives the fact a value. -/
def withdraw (s : Consultation) (fact : String) : Consultation :=
  { s with questions := s.questions.eraseP (·.infers fact) }

@[simp] theorem questions_fire (s : Consultation) (rule : Rule) (finding : Finding) :
    (s.fire rule finding).1.questions = s.questions := rfl

/-- A question that is taken out is gone. -/
theorem length_questions_withdraw {s : Consultation} {fact : String} {q : Question}
    (h : s.questions.find? (·.infers fact) = some q) :
    (s.withdraw fact).questions.length < s.questions.length := by
  have hq := List.mem_of_find?_eq_some h
  have hinfers : q.infers fact = true :=
    List.find?_some (p := (Question.infers · fact)) h
  have hlen : (s.withdraw fact).questions.length = s.questions.length - 1 :=
    @List.length_eraseP_of_mem _ _ q (Question.infers · fact) hq hinfers
  have hpos := List.length_pos_of_mem hq
  omega

end Consultation

/-! ## Questions -/

/-- No question is added to the first `n`, and one is withdrawn if `asks` says that
the result hands one out. -/
def QuestionsWithin {α : Type} (n : Nat) (asks : α → Prop) (result : Except Fault α)
    (s : Consultation) : Prop :=
  s.questions.length ≤ n ∧ ∀ a, result = .ok a → asks a → s.questions.length < n

/-- A solution that hands out a question. -/
def Solution.Asks : Solution → Prop
  | .ask _ => True
  | _ => False

/-- An outcome that hands out a question. -/
def Outcome.Asks : Outcome → Prop
  | .pending _ => True
  | .decided => False

end Consult
