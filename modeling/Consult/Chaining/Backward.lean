import Consult.Chaining.Basic
import Consult.Attribution

/-!
# Backward chaining

The goal in front of the agenda is settled by a rule if one fires, else it waits
for the facts that its rules depend on, else it is asked for. A goal that waits
puts the fact most responsible for that in front of itself; if all of them are
being pursued already, it is given up and assumed undefined.

## Main results

* `backwardFor_post_of_turn` — what every turn hands on holds of all rounds together.
* `backward_post` — no question is added, and one that is handed out is withdrawn.
-/

namespace Consult

/-! ## Settling one goal -/

/-- What the rules for a goal have to say. -/
structure Survey where
  trace : List Event
  /-- The findings on rules that may still fire. -/
  undecided : List Finding
  /-- The first rule that fires, if any. -/
  ending : Except Fault (Option (Rule × Finding))

/-- Evaluates rules in their order, until one fires. -/
def survey (facts : Facts) : List Rule → Survey
  | [] => ⟨[], [], .ok none⟩
  | rule :: rules =>
    match rule.condition.evaluate facts with
    | .error fault => ⟨[], [], .error fault⟩
    | .ok finding =>
      match finding.verdict with
      | .yes => ⟨[.considered rule finding], [], .ok (some (rule, finding))⟩
      | .no =>
        let rest := survey facts rules
        ⟨.considered rule finding :: rest.trace, rest.undecided, rest.ending⟩
      | .maybe =>
        let rest := survey facts rules
        ⟨.considered rule finding :: rest.trace, finding :: rest.undecided, rest.ending⟩

/-- Hands out the first question that settles a fact, if there is one. -/
def askFor (fact : String) (s : Consultation) : Run Solution :=
  match s.questions.find? (·.infers fact) with
  | none => .ok (.unknown (.because .maybe [])) s []
  | some q =>
    let others : Bool := s.questions.countP (·.infers fact) > 1
    .ok (.ask ⟨q, others⟩) (s.withdraw fact)
      [if others then .askingOneOf q.description fact else .asking q.description fact]

/-- Tries to settle a fact that is not recorded. -/
def settle (kb : KnowledgeBase) (fact : String) (s : Consultation) : Run Solution :=
  let rules := kb.rulesInferring fact
  let found := survey s.facts rules
  match found.ending with
  | .error fault => .fail fault s found.trace
  | .ok (some (rule, finding)) =>
    let (s', conflicts) := s.fire rule finding
    match s'.facts.get? fact with
    | some record => .ok (.known record) s' (found.trace ++ conflicts)
    | none => .fail (.unsolvedGoal fact) s' (found.trace ++ conflicts)
  | .ok none =>
    if found.undecided.isEmpty then
      let exhausted :=
        Event.rulesExhausted fact rules.length (s.questions.countP (·.infers fact))
      (Run.ok () s (found.trace ++ [exhausted])).andThen fun _ s => askFor fact s
    else
      .ok (.unknown (.because .maybe (found.undecided.map .finding))) s found.trace

/-- Tries to settle a goal. -/
def solve (kb : KnowledgeBase) (goal : String) (s : Consultation) : Run Solution :=
  (Run.lift (s.facts.resolve goal) s).andThen fun resolution s =>
    match resolution with
    | .unknown fact => .ok (.unknown (.missing fact)) s []
    | .literal fact =>
      match s.facts.get? fact with
      | some record => .ok (.known record) s []
      | none => settle kb fact s

/-! ## Working the agenda -/

/-- Gives a goal up: the fact that it leads to is assumed undefined. -/
def giveUp (goal : String) (s : Consultation) : Run Unit :=
  (Run.lift (s.pop.facts.resolve goal) s.pop).andThen fun resolution s =>
    match resolution with
    | .unknown _ => .ok () s [.dropped goal]
    | .literal fact =>
      let (s, conflict) := s.assumeUndefined fact
      .ok () s (.assumingUndefined fact :: conflict.toList.map .alreadyDefined)

/-- Pursues the first fact that a goal waits for and that is not being pursued yet,
or gives the goal up. -/
def pursue (limits : Limits) (goal : String) (finding : Finding) (s : Consultation) :
    Run Unit :=
  let facts := finding.unknownFacts
  let waiting := Event.waiting goal facts
  match facts.find? (!s.isPursuing ·) with
  | some fact =>
    if s.agenda.length < limits.maxAgenda then
      .ok () (s.push fact) [waiting, .pursuing fact goal]
    else .fail (.agendaLimit limits.maxAgenda fact) s [waiting]
  | none => (Run.ok () s [waiting]).andThen fun _ s => giveUp goal s

/-- Takes a goal with a literal value off the agenda. -/
def conclude (goal value : String) (s : Consultation) : Run Unit :=
  (Run.lift (s.pop.facts.lookup goal) s.pop).andThen fun found s =>
    match found with
    | some _ => .ok () s [.solved goal value]
    | none => .fail (.unsolvedGoal goal) s []

/-- One round for the goal in front of the agenda. The result is a question to be
asked, if the goal needs one. -/
def turn (kb : KnowledgeBase) (limits : Limits) (goal : String) (s : Consultation) :
    Run (Option Pending) :=
  (solve kb goal s).andThen fun solution s =>
    match solution with
    | .ask pending => .ok (some pending) s []
    | .unknown finding =>
        (pursue limits goal finding s).andThen fun _ s => .ok none s []
    | .known record =>
      (Run.lift (s.facts.resolve record.value) s).andThen fun resolution s =>
        match resolution with
        | .unknown fact =>
            (pursue limits goal (.missing fact) s).andThen fun _ s => .ok none s []
        | .literal value => (conclude goal value s).andThen fun _ s => .ok none s []

/-- Works the agenda for at most `rounds` rounds. -/
def backwardFor (kb : KnowledgeBase) (limits : Limits) :
    (rounds : Nat) → Consultation → Run Outcome
  | rounds, s =>
    match s.agenda with
    | [] => .ok .decided s []
    | goal :: _ =>
      match rounds with
      | 0 => .fail (.stepLimit limits.maxSteps) s []
      | rounds + 1 =>
        (turn kb limits goal s).andThen fun pending s =>
          match pending with
          | some pending => .ok (.pending pending) s []
          | none => backwardFor kb limits rounds s

/-- Works the agenda until it is empty or a question has to be asked. -/
def backward (kb : KnowledgeBase) (limits : Limits) (s : Consultation) : Run Outcome :=
  backwardFor kb limits limits.maxSteps s

/-- What every turn hands on holds of all rounds together.  `P rounds s x s'` is to
say that at most so many rounds may lead from `s` to `s'` with the result `x`: it
holds where no round is taken, and what holds of the rounds after a turn must hold of
those rounds and the turn. -/
theorem backwardFor_post_of_turn {kb : KnowledgeBase} {limits : Limits}
    {P : Nat → Consultation → Except Fault Outcome → Consultation → Prop}
    (decided : ∀ rounds s, s.agenda = [] → P rounds s (.ok .decided) s)
    (spent : ∀ s, s.agenda ≠ [] → P 0 s (.error (.stepLimit limits.maxSteps)) s)
    (turned : ∀ rounds s goal rest, s.agenda = goal :: rest →
      (turn kb limits goal s).Post fun x t =>
        match x with
        | .error fault => P (rounds + 1) s (.error fault) t
        | .ok (some pending) => P (rounds + 1) s (.ok (.pending pending)) t
        | .ok none => ∀ y u, P rounds t y u → P (rounds + 1) s y u)
    (rounds : Nat) : ∀ s, (backwardFor kb limits rounds s).Post (P rounds s) := by
  induction rounds with
  | zero =>
      intro s
      unfold backwardFor
      split
      · next hagenda => exact decided 0 s hagenda
      · next hagenda => exact spent s (by simp [hagenda])
  | succ rounds ih =>
      intro s
      unfold backwardFor
      split
      · next hagenda => exact decided _ s hagenda
      · next goal rest hagenda =>
        refine (turned rounds s goal rest hagenda).andThen (fun pending t ht => ?_)
          (fun _ _ ht => ht)
        cases pending with
        | some pending => exact ht
        | none => exact (ih t).mono ht

/-! ## Questions -/

private theorem askFor_post (fact : String) (s : Consultation) :
    (askFor fact s).Post (QuestionsWithin s.questions.length Solution.Asks) := by
  unfold askFor
  split
  · exact ⟨Nat.le_refl _, fun a h ha => by cases h; exact ha.elim⟩
  · next q hq =>
    have := Consultation.length_questions_withdraw hq
    exact ⟨Nat.le_of_lt this, fun _ _ _ => this⟩

private theorem settle_post (kb : KnowledgeBase) (fact : String) (s : Consultation) :
    (settle kb fact s).Post (QuestionsWithin s.questions.length Solution.Asks) := by
  unfold settle
  dsimp only
  split
  · exact ⟨Nat.le_refl _, nofun⟩
  · split
    · exact ⟨Nat.le_refl _, fun a h ha => by cases h; exact ha.elim⟩
    · exact ⟨Nat.le_refl _, nofun⟩
  · split
    · exact Run.Post.andThen (Q := fun _ s' => s' = s) rfl
        (fun _ _ h => h ▸ askFor_post fact s) (fun _ _ h => ⟨h ▸ Nat.le_refl _, nofun⟩)
    · exact ⟨Nat.le_refl _, fun a h ha => by cases h; exact ha.elim⟩

/-- Settling a goal adds no question, and one that is handed out is withdrawn. -/
theorem solve_post (kb : KnowledgeBase) (goal : String) (s : Consultation) :
    (solve kb goal s).Post (QuestionsWithin s.questions.length Solution.Asks) := by
  refine Run.Post.andThen (Q := fun _ s' => s' = s) rfl (fun resolution s' h => ?_)
    (fun _ _ h => ⟨h ▸ Nat.le_refl _, nofun⟩)
  subst h
  split
  · exact ⟨Nat.le_refl _, fun a h ha => by cases h; exact ha.elim⟩
  · split
    · exact ⟨Nat.le_refl _, fun a h ha => by cases h; exact ha.elim⟩
    · exact settle_post kb _ _

private theorem giveUp_questions (goal : String) (s : Consultation) :
    (giveUp goal s).Post fun _ s' => s'.questions = s.questions := by
  refine Run.Post.andThen (Q := fun _ s' => s' = s.pop) rfl (fun resolution s' h => ?_)
    (fun _ _ h => h ▸ rfl)
  subst h
  split <;> rfl

private theorem pursue_questions (limits : Limits) (goal : String) (f : Finding)
    (s : Consultation) :
    (pursue limits goal f s).Post fun _ s' => s'.questions = s.questions := by
  unfold pursue
  dsimp only
  split
  · split <;> rfl
  · exact Run.Post.andThen (Q := fun _ s' => s' = s) rfl
      (fun _ _ h => h ▸ giveUp_questions goal s) (fun _ _ h => h ▸ rfl)

private theorem conclude_questions (goal value : String) (s : Consultation) :
    (conclude goal value s).Post fun _ s' => s'.questions = s.questions := by
  refine Run.Post.andThen (Q := fun _ s' => s' = s.pop) rfl (fun found s' h => ?_)
    (fun _ _ h => h ▸ rfl)
  subst h
  split <;> rfl

private theorem turn_post (kb : KnowledgeBase) (limits : Limits) (goal : String)
    (s : Consultation) :
    (turn kb limits goal s).Post
      (QuestionsWithin s.questions.length fun p => p ≠ none) := by
  have goesOn {r : Run Unit} {s' : Consultation}
      (hs : s'.questions.length ≤ s.questions.length)
      (h : r.Post fun _ t => t.questions = s'.questions) :
      (r.andThen fun _ t => Run.ok (none : Option Pending) t []).Post
        (QuestionsWithin s.questions.length fun p => p ≠ none) :=
    h.andThen (fun _ t (ht : t.questions = s'.questions) =>
        ⟨show t.questions.length ≤ _ from ht ▸ hs,
          fun a h ha => by cases h; exact absurd rfl ha⟩)
      (fun _ t ht => ⟨ht ▸ hs, nofun⟩)
  refine (solve_post kb goal s).andThen (fun solution s' h => ?_)
    (fun _ _ h => ⟨h.1, nofun⟩)
  split
  · exact ⟨h.1, fun _ _ _ => h.2 _ rfl trivial⟩
  · exact goesOn h.1 (pursue_questions limits goal _ s')
  · refine Run.Post.andThen (Q := fun _ t => t = s') rfl (fun resolution t ht => ?_)
      (fun _ _ ht => ⟨ht ▸ h.1, nofun⟩)
    subst ht
    split
    · exact goesOn h.1 (pursue_questions limits goal _ t)
    · exact goesOn h.1 (conclude_questions goal _ t)

/-- Backward chaining adds no question, and one that it hands out is withdrawn. -/
theorem backward_post (kb : KnowledgeBase) (limits : Limits) (s : Consultation) :
    (backward kb limits s).Post (QuestionsWithin s.questions.length Outcome.Asks) := by
  refine backwardFor_post_of_turn
    (P := fun _ s => QuestionsWithin s.questions.length Outcome.Asks) ?_ ?_ ?_ _ s
  · intro rounds s _
    exact ⟨Nat.le_refl _, fun a h ha => by cases h; exact ha.elim⟩
  · intro s _
    exact ⟨Nat.le_refl _, nofun⟩
  · intro rounds s goal rest _
    refine (turn_post kb limits goal s).mono ?_
    rintro (fault | _ | pending) t ⟨hquestions, hasked⟩
    · exact ⟨hquestions, nofun⟩
    · intro y u ⟨hrest, hasks⟩
      exact ⟨Nat.le_trans hrest hquestions,
        fun a ha hpending => Nat.lt_of_lt_of_le (hasks a ha hpending) hquestions⟩
    · exact ⟨hquestions, fun _ _ _ => hasked _ rfl nofun⟩

end Consult
