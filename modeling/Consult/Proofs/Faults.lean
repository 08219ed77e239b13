import Consult.Engine
import Consult.Proofs.Sweep
import Consult.Proofs.Turn

/-!
# Which faults there are

What can go wrong while a knowledge base is consulted is that a chain of variables is
circular, or that a limit is exceeded.  Two further faults guard against what should
never happen: that a goal has no value although it was settled, and that a variable
stands where the name of a fact is wanted. They are never raised, whatever the
knowledge base and the recorded facts.

A chain is followed to a literal, so that a value is only looked up under the name of
a fact.  A rule that fires leaves the fact that it was fired for recorded, whatever
else it contradicts.  And the records from which a goal has been found to have a value
are still there when it is taken off the agenda.

## Main results

* `Facts.failsOnly_lookup`, `Goal.failsOnly_conclude` — what can go wrong
  when values are looked up.
* `failsOnly_solve`, `failsOnly_backward`, `failsOnly_forward` — what
  can go wrong in chaining.
* `only_expected_faults` — all of it.
-/

namespace Consult

/-- A chain of variables was found to be circular. -/
def Fault.IsCircular (fault : Fault) : Prop := ∃ chain, fault = .circular chain

/-- If the computation fails, the fault is of this kind. -/
def FailsOnly {α : Type} (kind : Fault → Prop) (x : Except Fault α) : Prop :=
  ∀ fault, x = .error fault → kind fault

namespace FailsOnly

variable {α β : Type} {kind : Fault → Prop}

theorem ok (a : α) : FailsOnly kind (.ok a) := nofun

theorem error {fault : Fault} (h : kind fault) :
    FailsOnly kind (.error fault : Except Fault α) := by
  intro fault' hfault
  cases hfault
  exact h

/-- A computation of two parts fails as one of them does. -/
theorem bind {x : Except Fault α} {f : α → Except Fault β} (hx : FailsOnly kind x)
    (hf : ∀ a, x = .ok a → FailsOnly kind (f a)) : FailsOnly kind (x >>= f) := by
  cases x with
  | ok a => exact hf a rfl
  | error fault => exact error (hx fault rfl)

theorem mapM {f : α → Except Fault β} (h : ∀ a, FailsOnly kind (f a)) (as : List α) :
    FailsOnly kind (as.mapM f) := by
  induction as with
  | nil => exact ok []
  | cons a as ih =>
      rw [List.mapM_cons]
      exact (h a).bind fun b _ => ih.bind fun bs _ => ok (b :: bs)

end FailsOnly

/-! ## Looking up values -/

namespace Facts

variable (facts : Facts)

theorem failsOnly_resolve (text : String) :
    FailsOnly Fault.IsCircular (facts.resolve text) :=
  fun _ h => circular_of_resolve h

/-- The value of a fact is looked up under its name. -/
theorem failsOnly_value {name : String} (hname : isVariable name = false) :
    FailsOnly Fault.IsCircular (facts.value name) := by
  unfold value
  rw [hname, if_neg Bool.false_ne_true]
  cases facts.get? name with
  | none => exact .ok none
  | some record =>
      refine (facts.failsOnly_resolve record.value).bind fun resolution _ => ?_
      cases resolution with
      | literal text => exact .ok (some text)
      | unknown fact => exact .ok none

/-- A chain of variables ends in a name. -/
theorem failsOnly_lookup (text : String) :
    FailsOnly Fault.IsCircular (facts.lookup text) := by
  refine (facts.failsOnly_resolve text).bind fun resolution hresolve => ?_
  cases resolution with
  | literal name => exact facts.failsOnly_value (isVariable_of_resolve hresolve)
  | unknown fact => exact .ok none

end Facts

/-- Of the answers, those with a value are compared with the value of the goal. -/
theorem Answer.failsOnly_find? (facts : Facts) (value : String)
    (answers : List Answer) :
    FailsOnly Fault.IsCircular (Answer.find? facts value answers) := by
  induction answers with
  | nil => exact .ok none
  | cons answer answers ih =>
      unfold Answer.find?
      split
      · exact ih
      · next expected _ =>
        refine (facts.failsOnly_resolve expected).bind fun resolution _ => ?_
        cases resolution with
        | unknown fact => exact ih
        | literal text =>
            dsimp only
            split
            · exact .ok (some answer)
            · exact ih

theorem Goal.failsOnly_answer? (goal : Goal) (facts : Facts) :
    FailsOnly Fault.IsCircular (goal.answer? facts) := by
  refine (facts.failsOnly_lookup goal.name).bind fun value? _ => ?_
  cases value? with
  | none => exact .ok _
  | some value =>
      exact (Answer.failsOnly_find? facts value goal.answers).bind fun _ _ => .ok _

theorem Goal.failsOnly_conclude (goal : Goal) (facts : Facts) :
    FailsOnly Fault.IsCircular (goal.conclude facts) :=
  (goal.failsOnly_answer? facts).bind fun _ _ =>
    (facts.failsOnly_lookup goal.name).bind fun _ _ => .ok _

theorem Engine.failsOnly_conclusions (e : Engine) (s : Consultation) :
    FailsOnly Fault.IsCircular (e.conclusions s) :=
  .mapM (fun goal => goal.failsOnly_conclude s.facts) e.knowledge.goals

/-! ## Chaining -/

theorem failsOnly_solve (kb : KnowledgeBase) (goal : String) (s : Consultation) :
    (solve kb goal s).Post fun x _ => FailsOnly Fault.IsCircular x := by
  refine (solve_cases kb goal s).mono fun x t h => ?_
  cases h with
  | circular hgoal => exact .error (Facts.circular_of_resolve hgoal)
  | circularRule _ heval => exact .error (Condition.circular_of_evaluate _ heval)
  | _ => exact .ok _

/-- The faults of backward chaining. -/
def Fault.OfBackward (limits : Limits) (fault : Fault) : Prop :=
  fault.IsCircular ∨ fault = .stepLimit limits.maxSteps ∨
    ∃ fact, fault = .agendaLimit limits.maxAgenda fact

/-- The faults of forward chaining. -/
def Fault.OfForward (limits : Limits) (fault : Fault) : Prop :=
  fault.IsCircular ∨ fault = .stepLimit limits.maxSteps

theorem failsOnly_turn (kb : KnowledgeBase) (limits : Limits) (goal : String)
    (s : Consultation) :
    (turn kb limits goal s).Post fun x _ => FailsOnly (Fault.OfBackward limits) x := by
  refine (turn_cases kb limits goal s).mono fun x t h => ?_
  cases h with
  | circular hgoal => exact .error (.inl (Facts.circular_of_resolve hgoal))
  | circularRule _ heval => exact .error (.inl (Condition.circular_of_evaluate _ heval))
  | circularValue _ _ _ hvalue => exact .error (.inl (Facts.circular_of_resolve hvalue))
  | overflow _ _ _ => exact .error (.inr (.inr ⟨_, rfl⟩))
  | _ => exact .ok _

theorem failsOnly_backwardFor (kb : KnowledgeBase) (limits : Limits) (rounds : Nat) :
    ∀ s, (backwardFor kb limits rounds s).Post fun x _ =>
      FailsOnly (Fault.OfBackward limits) x := by
  refine backwardFor_post_of_turn
    (P := fun _ _ x _ => FailsOnly (Fault.OfBackward limits) x) ?_ ?_ ?_ rounds
  · exact fun _ _ _ => .ok _
  · exact fun _ _ => .error (.inr (.inl rfl))
  · intro _ s goal rest _
    refine (failsOnly_turn kb limits goal s).mono ?_
    rintro (fault | _ | pending) t ht
    · exact .error (ht fault rfl)
    · exact fun _ _ hrest => hrest
    · exact .ok _

theorem failsOnly_backward (kb : KnowledgeBase) (limits : Limits) (s : Consultation) :
    FailsOnly (Fault.OfBackward limits) (backward kb limits s).result :=
  failsOnly_backwardFor kb limits limits.maxSteps s

theorem Sweeps.failsOnly {limits : Limits} {rounds : Nat} {s s' : Consultation}
    {x : Except Fault Outcome} (h : Sweeps limits rounds s x s') :
    FailsOnly (Fault.OfForward limits) x := by
  induction h with
  | limit s => exact .error (.inr rfl)
  | circular _ _ _ heval => exact .error (.inl (Condition.circular_of_evaluate _ heval))
  | decided _ _ _ => exact .ok _
  | asked _ _ _ _ => exact .ok _
  | fired _ _ _ _ _ ih => exact ih

theorem failsOnly_forward (limits : Limits) (s : Consultation) :
    FailsOnly (Fault.OfForward limits) (forward limits s).result :=
  ((forwardFor_cases limits limits.maxSteps s).mono fun _ _ h => h.failsOnly :
    (forward limits s).Post fun x _ => FailsOnly (Fault.OfForward limits) x)

/-- Whatever is recorded and wherever it comes from, nothing goes wrong but that
a chain of variables is circular, or that chaining exceeds a limit.  In
particular no goal that was settled turns out to have no value, and no variable
is taken for the name of a fact. -/
theorem only_expected_faults (kb : KnowledgeBase) (limits : Limits) (s : Consultation)
    (name : String) :
    FailsOnly Fault.IsCircular (solve kb name s).result ∧
      FailsOnly (Fault.OfBackward limits) (backward kb limits s).result ∧
      FailsOnly (Fault.OfForward limits) (forward limits s).result ∧
      FailsOnly Fault.IsCircular (s.facts.lookup name) ∧
      (∀ goal : Goal, FailsOnly Fault.IsCircular (goal.answer? s.facts)) ∧
      ∀ e : Engine, FailsOnly Fault.IsCircular (e.conclusions s) :=
  ⟨failsOnly_solve kb name s, failsOnly_backward kb limits s,
    failsOnly_forward limits s,
    s.facts.failsOnly_lookup name, fun goal => goal.failsOnly_answer? s.facts,
    fun e => e.failsOnly_conclusions s⟩

/-- A door is what the door is, and there is a rule on it. -/
def doorKnowledge : KnowledgeBase where
  rules := [
    { condition := .equals "door" "open",
      consequences := KeyMap.empty.insert "guest" "yes" }]
  goals := [{ name := "door" }]
  facts := KeyMap.empty.insert "door" "$door"

/-- An engine that determines the door. -/
def doorEngine : Engine where
  knowledge := doorKnowledge
  checked := by rfl

/-- The door leads nowhere, in whatever way one asks for it.  There is no
time for anything if no step is allowed, and no room for the key if only
one goal may be pursued. -/
theorem door_faults :
    (∃ fault, (solve doorKnowledge "$door" doorKnowledge.start).result = .error fault ∧
        fault.IsCircular) ∧
      (∃ fault, (backward doorKnowledge {} doorKnowledge.start).result = .error fault ∧
        fault.OfBackward {}) ∧
      (∃ fault, (forward {} doorKnowledge.start).result = .error fault ∧
        fault.OfForward {}) ∧
      (∃ fault, doorKnowledge.start.facts.lookup "door" = .error fault ∧
        fault.IsCircular) ∧
      (∃ fault, Goal.answer? { name := "door" } doorKnowledge.start.facts =
        .error fault ∧
        fault.IsCircular) ∧
      (∃ fault, doorEngine.conclusions doorKnowledge.start = .error fault ∧
        fault.IsCircular) ∧
      (∃ fault, (forward { maxSteps := 0 } doorKnowledge.start).result = .error fault ∧
        fault.OfForward { maxSteps := 0 }) ∧
      ∃ fault, (backward doorKnowledge { maxAgenda := 1 }
          { doorKnowledge.start with agenda := ["$key"] }).result = .error fault ∧
        fault.OfBackward { maxAgenda := 1 } := by
  obtain ⟨hsolve, hbackward, hforward, -, hanswer, hconclusions⟩ :=
    only_expected_faults doorKnowledge {} doorKnowledge.start "$door"
  obtain ⟨-, -, -, hlookup, -⟩ :=
    only_expected_faults doorKnowledge {} doorKnowledge.start "door"
  obtain ⟨-, -, hsteps, -⟩ :=
    only_expected_faults doorKnowledge { maxSteps := 0 } doorKnowledge.start "door"
  obtain ⟨-, hagenda, -⟩ := only_expected_faults doorKnowledge { maxAgenda := 1 }
    { doorKnowledge.start with agenda := ["$key"] } "$key"
  have hfull : (backward doorKnowledge { maxAgenda := 1 }
      { doorKnowledge.start with agenda := ["$key"] }).result =
      .error (.agendaLimit 1 "key") := by
    decide +kernel
  exact ⟨⟨_, rfl, hsolve _ rfl⟩, ⟨_, rfl, hbackward _ rfl⟩, ⟨_, rfl, hforward _ rfl⟩,
    ⟨_, rfl, hlookup _ rfl⟩, ⟨_, rfl, hanswer { name := "door" } _ rfl⟩,
    ⟨_, rfl, hconclusions doorEngine _ rfl⟩, ⟨_, rfl, hsteps _ rfl⟩,
    ⟨_, hfull, hagenda _ hfull⟩⟩

end Consult
