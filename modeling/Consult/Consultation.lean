import Consult.Placeholder
import Consult.Condition.Evaluation

/-!
# Consultations

A consultation is all that changes while goals are being determined: the
recorded facts, the rules and questions that are left, and the agenda of the
goals pursued at the moment. It is plain data, so it can be put aside while a
question is open and taken up again later.

## Main results

* `mem_seed` — the agenda starts with the declared goals and what their answers refer
  to.
* `nodup_seed` — it has none of them twice.
-/

namespace Consult

/-- The state of a consultation. -/
structure Consultation where
  facts : Facts
  /-- The rules that forward chaining has neither fired nor ruled out. -/
  rules : List Rule
  /-- The questions that have not been asked. -/
  questions : List Question
  /-- The goals pursued, the one pursued right now first. -/
  agenda : List String
deriving DecidableEq

namespace Consultation

/-- A consultation about nothing. -/
def blank : Consultation := ⟨.initial, [], [], []⟩

instance : Inhabited Consultation := ⟨blank⟩

/-! ## Recording facts -/

/-- Records consequences that have a reason in common; returns those that conflict
with what is recorded already. -/
def apply (s : Consultation) (consequences : Consequences) (reason : Reason) :
    Consultation × List Conflict :=
  (⟨s.facts.record consequences reason, s.rules, s.questions, s.agenda⟩,
    s.facts.conflicts consequences)

/-- Records the consequences of a rule that fires. -/
def applyRule (s : Consultation) (rule : Rule) (finding : Finding) :
    Consultation × List Conflict :=
  s.apply rule.consequences (.inferred rule finding)

/-- Records the consequences of an option that was chosen. -/
def applyAnswer (s : Consultation) (question : Question) (choice : Choice) :
    Consultation × List Conflict :=
  s.apply choice.consequences (.answered question choice)

/-- Gives a fact a value, for a reason that needs no support. -/
def state (s : Consultation) (fact value explanation : String) :
    Consultation × Option Conflict :=
  let (s, conflicts) := s.apply (KeyMap.empty.insert fact value) (.given explanation)
  (s, conflicts.head?)

/-- Gives a fact a value. -/
def define (s : Consultation) (fact value : String) : Consultation × Option Conflict :=
  s.state fact value "Given"

/-- Assumes that a fact which nothing can determine is undefined. -/
def assumeUndefined (s : Consultation) (fact : String) :
    Consultation × Option Conflict :=
  s.state fact undefinedValue
    s!"No rule or question could determine '{fact}', so it is assumed undefined"

/-! ## The agenda -/

/-- Whether the fact is being pursued. -/
def isPursuing (s : Consultation) (name : String) : Bool := s.agenda.contains name

/-- Pursues a fact before all others. -/
def push (s : Consultation) (name : String) : Consultation := { s with agenda :=
  name :: s.agenda }

/-- Gives up the fact that is pursued right now. -/
def pop (s : Consultation) : Consultation := { s with agenda := s.agenda.tail }

end Consultation

/-! ## Beginning -/

/-- The agenda with a name in front, unless it is there already. -/
def pushNew (agenda : List String) (name : String) : List String :=
  if name ∈ agenda then agenda else name :: agenda

/-- The facts that the answers of a goal refer to. -/
def Goal.targets (g : Goal) : List String := g.answers.filterMap (·.value.bind target?)

/-- The agenda for a list of goals. The first goal stands before the
others, and behind the facts that its answers refer to, so that these are
known when the answer is given. -/
def seed (goals : List Goal) : List String :=
  goals.foldr (fun g agenda => g.targets.foldl pushNew (pushNew agenda g.name)) []

/-- The start of a consultation of a knowledge base. -/
def KnowledgeBase.start (kb : KnowledgeBase) : Consultation where
  facts := Facts.initial.record kb.facts (.given "Defined in the knowledge base")
  rules := kb.rules
  questions := kb.questions
  agenda := seed kb.goals

theorem mem_pushNew {agenda : List String} {name other : String} :
    other ∈ pushNew agenda name ↔ other = name ∨ other ∈ agenda := by
  by_cases h : name ∈ agenda
  · simp only [pushNew, h, if_true]
    exact ⟨.inr, fun h' => h'.elim (fun e => e ▸ h) id⟩
  · simp [pushNew, h]

private theorem mem_foldl_pushNew {names agenda : List String} {other : String} :
    other ∈ names.foldl pushNew agenda ↔ other ∈ names ∨ other ∈ agenda := by
  induction names generalizing agenda with
  | nil => simp
  | cons n ns ih =>
    rw [List.foldl_cons, ih, mem_pushNew, List.mem_cons]
    constructor
    · rintro (h | h | h) <;> simp [h]
    · rintro ((h | h) | h) <;> simp [h]

/-- The agenda starts with the declared goals and what their answers refer to. -/
theorem mem_seed {goals : List Goal} {name : String} :
    name ∈ seed goals ↔ ∃ g ∈ goals, name = g.name ∨ name ∈ g.targets := by
  induction goals with
  | nil => simp [seed]
  | cons g gs ih =>
    have : seed (g :: gs) = g.targets.foldl pushNew (pushNew (seed gs) g.name) := rfl
    rw [this, mem_foldl_pushNew, mem_pushNew, ih]
    constructor
    · rintro (h | h | ⟨g', hg', h⟩)
      · exact ⟨g, List.mem_cons_self, .inr h⟩
      · exact ⟨g, List.mem_cons_self, .inl h⟩
      · exact ⟨g', List.mem_cons_of_mem _ hg', h⟩
    · rintro ⟨g', hg', h⟩
      rcases List.mem_cons.1 hg' with rfl | hg'
      · exact h.elim (fun h => .inr (.inl h)) .inl
      · exact .inr (.inr ⟨g', hg', h⟩)

theorem nodup_pushNew {agenda : List String} {name : String} (h : agenda.Nodup) :
    (pushNew agenda name).Nodup := by
  unfold pushNew
  split
  · exact h
  · next hnew => exact List.nodup_cons.2 ⟨hnew, h⟩

private theorem nodup_foldl_pushNew {names agenda : List String} (h : agenda.Nodup) :
    (names.foldl pushNew agenda).Nodup := by
  induction names generalizing agenda with
  | nil => exact h
  | cons n ns ih => exact ih (nodup_pushNew h)

/-- The agenda starts without repetitions. -/
theorem nodup_seed (goals : List Goal) : (seed goals).Nodup := by
  induction goals with
  | nil => exact List.nodup_nil
  | cons g gs ih => exact nodup_foldl_pushNew (nodup_pushNew ih)

/-! ## Answers -/

/-- The first answer whose value, followed to a literal, is the value of the goal. -/
def Answer.find? (facts : Facts) (value : String) :
    List Answer → Except Fault (Option Answer)
  | [] => return none
  | a :: rest =>
    match a.value with
    | none => find? facts value rest
    | some expected => do
      match ← facts.resolve expected with
      | .literal text => if text = value then return some a else find? facts value rest
      | .unknown _ => find? facts value rest

/-- The answer for the value that a goal has; if there is none, the
first one for all others. -/
def Goal.answer? (g : Goal) (facts : Facts) : Except Fault (Option Answer) := do
  let otherwise := g.answers.find? (·.value.isNone)
  match ← facts.lookup g.name with
  | none => return otherwise
  | some value => return (← Answer.find? facts value g.answers).or otherwise

/-- What a consultation says about a goal. -/
structure Conclusion where
  goal : String
  description : String
  value : Option String
  answer : Option String
deriving DecidableEq, Repr

/-- What the facts say about a goal, its texts filled in. -/
def Goal.conclude (g : Goal) (facts : Facts) : Except Fault Conclusion := do
  let answer ← g.answer? facts
  let value ← facts.lookup g.name
  return ⟨g.name, facts.fillIn g.description, value,
    answer.map fun a => facts.fillIn a.description⟩

end Consult
