import Consult.Chaining.Basic
import Consult.Attribution

/-!
# Forward chaining

The rules that are left are swept in their order. A rule that fires or can never
fire leaves them, and after a rule has fired the sweep begins anew. When no rule
can fire any more, a question is asked that settles what an undecided rule waits
for; if there is none, the facts are saturated.

## Main results

* `forwardFor_post_of_sweep` — what every sweep hands on holds of all sweeps together.
* `forward_post` — no question is added, and one that is handed out is withdrawn.
-/

namespace Consult

/-- The most responsible fact that a finding waits for and that some question
settles. -/
def askable? (questions : List Question) (finding : Finding) : Option String :=
  finding.unknownFacts.find? fun fact => questions.any (·.infers fact)

/-- What a sweep of the rules comes to. -/
structure Sweep where
  trace : List Event
  /-- The rules that are left. -/
  rules : List Rule
  /-- The fact to ask for, if no rule fires. -/
  askFor : Option String
  /-- The rule that fires, if any. -/
  ending : Except Fault (Option (Rule × Finding))

/-- Evaluates rules in their order, until one fires. -/
def sweep (facts : Facts) (questions : List Question) : List Rule → Sweep
  | [] => ⟨[], [], none, .ok none⟩
  | rule :: rules =>
    match rule.condition.evaluate facts with
    | .error fault => ⟨[], rule :: rules, none, .error fault⟩
    | .ok finding =>
      match finding.verdict with
      | .yes => ⟨[.fired rule finding], rules, none, .ok (some (rule, finding))⟩
      | .no =>
        let rest := sweep facts questions rules
        ⟨.ruledOut rule finding :: rest.trace, rest.rules, rest.askFor, rest.ending⟩
      | .maybe =>
        let rest := sweep facts questions rules
        ⟨rest.trace, rule :: rest.rules, (askable? questions finding).or rest.askFor,
          rest.ending⟩

/-- Hands out the first question that settles a fact. Something else may settle it too
if another question or an undecided rule does. -/
def askToSettle (fact : String) (s : Consultation) : Run Outcome :=
  match s.questions.find? (·.infers fact) with
  | none => .ok .decided s []
  | some q =>
    let s := s.withdraw fact
    let others := s.questions.any (·.infers fact) || s.rules.any (·.infers fact)
    .ok (.pending ⟨q, others⟩) s [.asking q.description fact]

/-- Ends chaining after a sweep in which no rule fired. -/
def saturate (askFor : Option String) (s : Consultation) : Run Outcome :=
  match askFor with
  | some fact => askToSettle fact s
  | none => .ok .decided s [.saturated s.rules.length]

/-- Sweeps the rules at most `rounds` times. -/
def forwardFor (limits : Limits) : (rounds : Nat) → Consultation → Run Outcome
  | 0, s => .fail (.stepLimit limits.maxSteps) s []
  | rounds + 1, s =>
    let swept := sweep s.facts s.questions s.rules
    (Run.mk swept.ending { s with rules := swept.rules } swept.trace).andThen
        fun ending s =>
      match ending with
      | none => saturate swept.askFor s
      | some (rule, finding) =>
        let (s', conflicts) := s.fire rule finding
        (Run.ok () s' conflicts).andThen fun _ s => forwardFor limits rounds s

/-- Fires rules until none can fire, or a question has to be asked. -/
def forward (limits : Limits) (s : Consultation) : Run Outcome :=
  forwardFor limits limits.maxSteps s

/-- What every sweep hands on holds of all sweeps together.  `P rounds s x s'` is to
say that at most so many sweeps may lead from `s` to `s'` with the result `x`: it
holds where there is no sweep, after one that fails and at the end of one in which no
rule fires, and what holds of the sweeps after a rule has fired must hold of those
sweeps and the one before. -/
theorem forwardFor_post_of_sweep {limits : Limits}
    {P : Nat → Consultation → Except Fault Outcome → Consultation → Prop}
    (spent : ∀ s, P 0 s (.error (.stepLimit limits.maxSteps)) s)
    (failed : ∀ rounds s fault,
      (sweep s.facts s.questions s.rules).ending = .error fault →
      P (rounds + 1) s (.error fault)
        { s with rules := (sweep s.facts s.questions s.rules).rules })
    (settled : ∀ rounds s, (sweep s.facts s.questions s.rules).ending = .ok none →
      (saturate (sweep s.facts s.questions s.rules).askFor
        { s with rules := (sweep s.facts s.questions s.rules).rules }).Post
          (P (rounds + 1) s))
    (fired : ∀ rounds s rule finding,
      (sweep s.facts s.questions s.rules).ending = .ok (some (rule, finding)) →
      ∀ y u, P rounds (Consultation.fire
        { s with rules := (sweep s.facts s.questions s.rules).rules } rule finding).1
          y u → P (rounds + 1) s y u)
    (rounds : Nat) : ∀ s, (forwardFor limits rounds s).Post (P rounds s) := by
  induction rounds with
  | zero => exact spent
  | succ rounds ih =>
      intro s
      unfold forwardFor
      dsimp only
      cases hending : (sweep s.facts s.questions s.rules).ending with
      | error fault => exact failed rounds s fault hending
      | ok fires =>
          cases fires with
          | none => exact settled rounds s hending
          | some fires => exact fired rounds s _ _ hending _ _ (ih _)

/-! ## Questions -/

private theorem askToSettle_post (fact : String) (s : Consultation) :
    (askToSettle fact s).Post (QuestionsWithin s.questions.length Outcome.Asks) := by
  unfold askToSettle
  split
  · exact ⟨Nat.le_refl _, fun a h ha => by cases h; exact ha.elim⟩
  · next q hq =>
    have := Consultation.length_questions_withdraw hq
    exact ⟨Nat.le_of_lt this, fun _ _ _ => this⟩

private theorem saturate_post (askFor : Option String) (s : Consultation) :
    (saturate askFor s).Post (QuestionsWithin s.questions.length Outcome.Asks) := by
  unfold saturate
  split
  · exact askToSettle_post _ s
  · exact ⟨Nat.le_refl _, fun a h ha => by cases h; exact ha.elim⟩

/-- Forward chaining adds no question, and one that it hands out is withdrawn. -/
theorem forward_post (limits : Limits) (s : Consultation) :
    (forward limits s).Post (QuestionsWithin s.questions.length Outcome.Asks) := by
  refine forwardFor_post_of_sweep
    (P := fun _ s => QuestionsWithin s.questions.length Outcome.Asks) ?_ ?_ ?_ ?_ _ s
  · exact fun s => ⟨Nat.le_refl _, nofun⟩
  · exact fun _ s _ _ => ⟨Nat.le_refl _, nofun⟩
  · exact fun _ s _ => saturate_post _ _
  · exact fun _ s _ _ _ _ _ hrest => hrest

end Consult
