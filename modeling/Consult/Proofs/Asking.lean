import Consult.Proofs.Persistence
import Consult.Proofs.Rounds

/-!
# Which question is asked

A call that hands out a question does so at its end.  Whatever it has done before, the
question is chosen for one fact, on the facts and rules that it leaves and from the
questions that it was given.

Backward chaining asks about the fact that the goal in front of the agenda leads to,
when no rule can give it a value any more: all that could have been ruled out, and
this is final.  Forward chaining asks when all rules that are left are undecided,
about the first fact that the first of them waits for, as far as there are questions.

## Main results

* `Exhausted.turn_of_some`, `Exhausted.turn_of_none` — a turn for a fact that is left
  to the questions.
* `backwardFor_asks`, `forwardFor_asks` — how a call comes to hand out a question.
* `asked_as_last_resort` — what the question is chosen for.
-/

namespace Consult

/-! ## The fact that a question is asked about -/

/-- The fact that an event asks about. -/
def Event.asked? : Event → Option String
  | .asking _ fact => some fact
  | .askingOneOf _ fact => some fact
  | _ => none

/-- The fact that a run asks about in the end. -/
def Run.subject? {α : Type} (r : Run α) : Option String :=
  r.trace.getLast?.bind Event.asked?

namespace Run

variable {α β : Type}

/-- What has been done before does not change what is asked about in the end. -/
theorem subject?_append {r : Run α} {fact : String} (h : r.subject? = some fact)
    {result : Except Fault β} {s : Consultation} {before : List Event} :
    (Run.mk result s (before ++ r.trace)).subject? = some fact := by
  obtain ⟨event, hlast, hfact⟩ := Option.bind_eq_some_iff.1 h
  rw [subject?, List.getLast?_append, hlast]
  exact hfact

end Run

/-- The run hands out the first of these questions that settles the fact, and says
that it asks about the fact. -/
structure Asks (questions : List Question) (fact : String) (pending : Pending)
    (r : Run Outcome) : Prop where
  question : questions.find? (·.infers fact) = some pending.question
  left : r.state.questions = questions.eraseP (·.infers fact)
  subject : r.subject? = some fact

theorem Asks.infers {questions : List Question} {fact : String} {pending : Pending}
    {r : Run Outcome} (h : Asks questions fact pending r) :
    pending.question.infers fact = true :=
  List.find?_some (p := (Question.infers · fact)) h.question

/-- Several items have a property if one still has it when the first is taken out. -/
theorem one_lt_countP_iff {α : Type} {p : α → Bool} {items : List α} {a : α}
    (h : items.find? p = some a) :
    1 < items.countP p ↔ ∃ b ∈ items.eraseP p, p b = true := by
  obtain ⟨hp, before, after, rfl, hbefore⟩ := List.find?_eq_some_iff_append.1 h
  have hnone : before.countP p = 0 := List.countP_eq_zero.2 (by simpa using hbefore)
  rw [List.eraseP_append_right _ (by simpa using hbefore), List.eraseP_cons_of_pos hp,
    ← List.countP_pos_iff, List.countP_append, List.countP_append,
    List.countP_cons_of_pos hp]
  omega

/-! ## Backward chaining -/

/-- The goal leads to a fact that is not recorded, and no rule can give it a value. -/
structure Exhausted (kb : KnowledgeBase) (s : Consultation) (goal fact : String) :
    Prop where
  hgoal : s.facts.resolve goal = .ok (.literal fact)
  hnone : s.facts.get? fact = none
  ruledOut : ∀ rule ∈ kb.rulesInferring fact, rule.condition.Finds s.facts .no

theorem Unsettled.exhausted {kb : KnowledgeBase} {s : Consultation} {goal fact : String}
    (h : Unsettled kb s fact []) (hgoal : s.facts.resolve goal = .ok (.literal fact)) :
    Exhausted kb s goal fact := by
  refine ⟨hgoal, h.hnone, fun rule hrule => ?_⟩
  obtain ⟨finding, heval, hno | ⟨-, hmem⟩⟩ := h.ruled rule hrule
  · exact ⟨finding, heval, hno⟩
  · cases hmem

/-- Nothing comes of a survey of rules that are ruled out. -/
theorem survey_of_ruledOut {facts : Facts} {rules : List Rule}
    (h : ∀ rule ∈ rules, rule.condition.Finds facts .no) :
    (survey facts rules).ending = .ok none ∧ (survey facts rules).undecided = [] := by
  induction rules with
  | nil => exact ⟨rfl, rfl⟩
  | cons rule rules ih =>
      obtain ⟨finding, heval, hno⟩ := h rule List.mem_cons_self
      rw [survey_cons_no heval hno]
      exact ih fun other hother => h other (List.mem_cons_of_mem _ hother)

/-- The first question that settles the fact is handed out. -/
theorem askFor_of_some {fact : String} {s : Consultation} {question : Question}
    (hfind : s.questions.find? (·.infers fact) = some question) :
    (askFor fact s).result =
        .ok (.ask ⟨question, decide (1 < s.questions.countP (·.infers fact))⟩) ∧
      (askFor fact s).state = s.withdraw fact ∧
        (askFor fact s).subject? = some fact := by
  unfold askFor
  rw [hfind]
  refine ⟨rfl, rfl, ?_⟩
  dsimp only [Run.ok]
  split <;> rfl

namespace Exhausted

variable {kb : KnowledgeBase} {s : Consultation} {goal fact : String}

/-- The fact is left to the questions. -/
theorem solve_eq (h : Exhausted kb s goal fact) : ∃ trace, solve kb goal s =
    ⟨(askFor fact s).result, (askFor fact s).state,
      trace ++ (askFor fact s).trace⟩ := by
  obtain ⟨hending, hundecided⟩ := survey_of_ruledOut h.ruledOut
  unfold solve
  rw [Run.andThen_of_ok (r := Run.lift (s.facts.resolve goal) s) h.hgoal]
  simp only [Run.lift, h.hnone, List.nil_append]
  unfold settle
  simp only [hending, hundecided, List.isEmpty_nil, if_true]
  exact ⟨_, rfl⟩

/-- If a question settles the fact, the first one is handed out. -/
theorem turn_of_some (h : Exhausted kb s goal fact) (limits : Limits)
    {question : Question} (hfind : s.questions.find? (·.infers fact) = some question) :
    (turn kb limits goal s).result =
        .ok (some ⟨question, decide (1 < s.questions.countP (·.infers fact))⟩) ∧
      (turn kb limits goal s).state = s.withdraw fact ∧
      (turn kb limits goal s).subject? = some fact := by
  obtain ⟨trace, hsolve⟩ := h.solve_eq
  obtain ⟨hresult, hstate, hlast⟩ := askFor_of_some hfind
  have hsubject : (solve kb goal s).subject? = some fact := by
    rw [hsolve]
    exact Run.subject?_append hlast
  have hsolved : (solve kb goal s).result =
      .ok (.ask ⟨question, decide (1 < s.questions.countP (·.infers fact))⟩) := by
    rw [hsolve]
    exact hresult
  unfold turn
  refine ⟨?_, ?_, ?_⟩
  · rw [Run.andThen_of_ok hsolved]
    rfl
  · rw [Run.andThen_of_ok hsolved, hsolve]
    exact hstate
  · rw [Run.andThen_of_ok hsolved]
    simpa only [Run.subject?, Run.ok, List.append_nil] using hsubject

/-- If no question settles the fact, it is assumed undefined. -/
theorem turn_of_none (h : Exhausted kb s goal fact) (limits : Limits)
    (hfind : s.questions.find? (·.infers fact) = none) :
    (turn kb limits goal s).result = .ok none ∧
      (turn kb limits goal s).state = (s.pop.assumeUndefined fact).1 := by
  obtain ⟨trace, hsolve⟩ := h.solve_eq
  have hask : askFor fact s = .ok (.unknown (.because .maybe [])) s [] := by
    unfold askFor
    rw [hfind]
  have hsolved : (solve kb goal s).result = .ok (.unknown (.because .maybe [])) ∧
      (solve kb goal s).state = s := by
    rw [hsolve, hask]
    exact ⟨rfl, rfl⟩
  have hgivenUp : (giveUp goal s).result = .ok () ∧
      (giveUp goal s).state = (s.pop.assumeUndefined fact).1 := by
    unfold giveUp
    rw [Run.andThen_of_ok (r := Run.lift (s.pop.facts.resolve goal) s.pop) h.hgoal]
    exact ⟨rfl, rfl⟩
  -- There is no fact to be pursued, so the goal is given up.
  have hpursued : (pursue limits goal (.because .maybe []) s).result = .ok () ∧
      (pursue limits goal (.because .maybe []) s).state =
      (s.pop.assumeUndefined fact).1 := hgivenUp
  unfold turn
  rw [Run.andThen_of_ok hsolved.1, hsolved.2]
  dsimp only
  rw [Run.andThen_of_ok hpursued.1]
  exact ⟨rfl, hpursued.2⟩

end Exhausted

/-- A turn that hands out a question does so for want of a rule. -/
theorem turn_asks {kb : KnowledgeBase} {limits : Limits} {goal : String}
    {s : Consultation} {pending : Pending}
    (h : (turn kb limits goal s).result = .ok (some pending)) :
    ∃ fact, Exhausted kb s goal fact ∧
      s.questions.find? (·.infers fact) = some pending.question ∧
      pending.skippable = decide (1 < s.questions.countP (·.infers fact)) ∧
      (turn kb limits goal s).state = s.withdraw fact ∧
      (turn kb limits goal s).subject? = some fact := by
  have hturn : Turn kb limits goal s (turn kb limits goal s).result
    (turn kb limits goal s).state := turn_cases kb limits goal s
  rw [h] at hturn
  generalize (turn kb limits goal s).state = s' at hturn
  cases hturn with
  | @asked fact _ hgoal hfacts hquestion =>
      have hexhausted := hfacts.exhausted hgoal
      obtain ⟨hresult, hstate, hsubject⟩ := hexhausted.turn_of_some limits hquestion
      rw [h] at hresult
      have hpending := Option.some.inj (Except.ok.inj hresult)
      exact ⟨fact, hexhausted, hquestion, congrArg Pending.skippable hpending,
        rfl, hsubject⟩

/-- A call of backward chaining that hands out a question ends with a turn that does. -/
theorem backwardFor_ends (kb : KnowledgeBase) (limits : Limits) {pending : Pending}
    (rounds : Nat) :
    ∀ s : Consultation, (backwardFor kb limits rounds s).result =
      .ok (.pending pending) →
      ∃ goal rest t, t.agenda = goal :: rest ∧ t.questions = s.questions ∧
        (turn kb limits goal t).result = .ok (some pending) ∧
        (backwardFor kb limits rounds s).state = (turn kb limits goal t).state ∧
        ∀ fact, (turn kb limits goal t).subject? = some fact →
          (backwardFor kb limits rounds s).subject? = some fact := by
  induction rounds with
  | zero =>
      intro s hresult
      cases hagenda : s.agenda with
      | nil =>
          rw [backwardFor_of_nil 0 hagenda] at hresult
          cases hresult
      | cons goal rest =>
          rw [backwardFor_zero hagenda] at hresult
          cases hresult
  | succ rounds ih =>
      intro s hresult
      cases hagenda : s.agenda with
      | nil =>
          rw [backwardFor_of_nil _ hagenda] at hresult
          cases hresult
      | cons goal rest =>
          cases hturn : (turn kb limits goal s).result with
          | error fault =>
              rw [backwardFor_of_error rounds hagenda hturn] at hresult
              cases hresult
          | ok handed =>
              cases handed with
              | some handed =>
                  rw [backwardFor_of_some rounds hagenda hturn] at hresult ⊢
                  cases hresult
                  exact ⟨goal, rest, s, hagenda, rfl, hturn, rfl,
                    fun fact hfact => hfact⟩
              | none =>
                  have hcontinues : (turn kb limits goal s).state.Continues s
                      (questionsOf (Option.map Pending.question)
                          (turn kb limits goal s).result) :=
                    turn_continues kb limits goal s
                  rw [hturn] at hcontinues
                  have hsame := hcontinues.questions.eq_of_nil
                  rw [backwardFor_of_none rounds hagenda hturn] at hresult ⊢
                  obtain ⟨front, below, t, hfront, hquestions, hasked, hstate,
                      hsubject⟩ :=
                    ih _ hresult
                  refine ⟨front, below, t, hfront, hquestions.trans hsame,
                    hasked, hstate, ?_⟩
                  intro fact hfact
                  exact Run.subject?_append (hsubject fact hfact)

/-- A call of backward chaining that hands out a question asks about the fact that the
goal in front leads to, which no rule can give a value. -/
theorem backwardFor_asks {kb : KnowledgeBase} {limits : Limits} {rounds : Nat}
    {s : Consultation} {pending : Pending}
    (h : (backwardFor kb limits rounds s).result = .ok (.pending pending)) :
    ∃ goal rest fact, (backwardFor kb limits rounds s).state.agenda = goal :: rest ∧
      Exhausted kb (backwardFor kb limits rounds s).state goal fact ∧
      Asks s.questions fact pending (backwardFor kb limits rounds s) ∧
      pending.skippable = decide (1 < s.questions.countP (·.infers fact)) := by
  obtain ⟨goal, rest, t, hagenda, hquestions, hasked, hstate, hsubject⟩ :=
    backwardFor_ends kb limits rounds s h
  obtain ⟨fact, hexhausted, hquestion, hskippable, hleft, hfact⟩ := turn_asks hasked
  rw [hquestions] at hquestion hskippable
  refine ⟨goal, rest, fact, ?_, ?_, ⟨hquestion, ?_, hsubject fact hfact⟩, hskippable⟩
  · rw [hstate, hleft]
    exact hagenda
  · rw [hstate, hleft]
    exact ⟨hexhausted.hgoal, hexhausted.hnone, hexhausted.ruledOut⟩
  · rw [hstate, hleft, ← hquestions]
    rfl

/-! ## Forward chaining -/

/-- Of these rules, all that stand before one are blocked; of the facts that this one
waits for, the fact is the first that one of the questions settles. -/
def FirstAskable (facts : Facts) (questions : List Question) (rules : List Rule)
    (fact : String) : Prop :=
  ∃ before rule after finding, rules = before ++ rule :: after ∧
    (∀ other ∈ before, other.Blocked facts questions) ∧
    rule.condition.evaluate facts = .ok finding ∧
    finding.unknownFacts.find? (fun name => questions.any (·.infers name)) = some fact

/-- The fact to ask for after a sweep is the first askable one for the rules that are
left. -/
theorem firstAskable_of_sweep {facts : Facts} {questions : List Question}
    {rules : List Rule} {fact : String}
    (hending : (sweep facts questions rules).ending = .ok none)
    (h : (sweep facts questions rules).askFor = some fact) :
    FirstAskable facts questions (sweep facts questions rules).rules fact := by
  induction rules with
  | nil => cases h
  | cons rule rules ih =>
      cases heval : rule.condition.evaluate facts with
      | error fault => simp [sweep, heval] at hending
      | ok finding =>
          cases hverdict : finding.verdict with
          | yes => simp [sweep, heval, hverdict] at hending
          | no =>
              rw [sweep] at hending h ⊢
              simp only [heval, hverdict] at hending h ⊢
              exact ih hending h
          | maybe =>
              rw [sweep] at hending h ⊢
              simp only [heval, hverdict] at hending h ⊢
              cases hask : askable? questions finding with
              | some name =>
                  rw [hask] at h
                  obtain rfl : name = fact := Option.some.inj h
                  exact ⟨[], rule, _, finding, rfl, by simp, heval, hask⟩
              | none =>
                  rw [hask] at h
                  obtain ⟨before, first, after, found, hrules, hblocked,
                      hfound, hfirst⟩ :=
                    ih hending h
                  have hnone := List.find?_eq_none.1 hask
                  have hrule : rule.Blocked facts questions :=
                    ⟨finding, heval, hverdict, by simpa using hnone⟩
                  refine ⟨rule :: before, first, after, found, by
                    rw [hrules]; rfl, ?_, hfound, hfirst⟩
                  intro other hother
                  rcases List.mem_cons.1 hother with rfl | hother
                  · exact hrule
                  · exact hblocked other hother

/-- A call of forward chaining that hands out a question ends with a sweep
in which no rule fires. -/
theorem forwardFor_ends (limits : Limits) {pending : Pending} (rounds : Nat) :
    ∀ s : Consultation, (forwardFor limits rounds s).result = .ok (.pending pending) →
      ∃ t fact, t.questions = s.questions ∧
        (∀ rule ∈ t.rules, rule.condition.Finds t.facts .maybe) ∧
        FirstAskable t.facts t.questions t.rules fact ∧
        (askToSettle fact t).result = .ok (.pending pending) ∧
        (forwardFor limits rounds s).state = (askToSettle fact t).state ∧
        ∀ name, (askToSettle fact t).subject? = some name →
          (forwardFor limits rounds s).subject? = some name := by
  induction rounds with
  | zero =>
      intro s hresult
      cases hresult
  | succ rounds ih =>
      intro s hresult
      have hswept := sweep_cases s.facts s.questions s.rules
      cases hending : (sweep s.facts s.questions s.rules).ending with
      | error fault =>
          rw [forwardFor_of_error limits rounds hending] at hresult
          cases hresult
      | ok fires =>
          cases fires with
          | some fires =>
              rw [forwardFor_of_some limits rounds hending,
                Run.andThen_of_ok (r := Run.ok () _ _) rfl] at hresult ⊢
              obtain ⟨t, fact, hquestions, hmaybe, hfirst, hasked, hstate, hsubject⟩ :=
                ih _ hresult
              refine ⟨t, fact, hquestions, hmaybe, hfirst, hasked, hstate,
                fun name hname => ?_⟩
              exact Run.subject?_append (hsubject name hname)
          | none =>
              rw [forwardFor_of_none limits rounds hending,
                Run.andThen_of_ok (r := Run.ok () _ _) rfl] at hresult ⊢
              cases hask : (sweep s.facts s.questions s.rules).askFor with
              | none =>
                  rw [hask] at hresult
                  cases hresult
              | some fact =>
                  have hfirst := firstAskable_of_sweep hending hask
                  rw [hending, hask] at hswept
                  simp only [hask] at hresult
                  refine ⟨{ s with rules := (sweep s.facts s.questions s.rules).rules },
                    fact, rfl, ?_,
                    hfirst, hresult, rfl, fun name hname => Run.subject?_append hname⟩
                  cases hswept with
                  | asks _ _ hmaybe _ _ => exact hmaybe

/-- A call of forward chaining that hands out a question leaves undecided rules only,
and asks about the first fact that one of them waits for. -/
theorem forwardFor_asks {limits : Limits} {rounds : Nat} {s : Consultation}
    {pending : Pending}
    (h : (forwardFor limits rounds s).result = .ok (.pending pending)) :
    ∃ fact, (∀ rule ∈ (forwardFor limits rounds s).state.rules,
        rule.condition.Finds (forwardFor limits rounds s).state.facts .maybe) ∧
      FirstAskable (forwardFor limits rounds s).state.facts s.questions
        (forwardFor limits rounds s).state.rules fact ∧
      Asks s.questions fact pending (forwardFor limits rounds s) ∧
      pending.skippable =
        ((forwardFor limits rounds s).state.questions.any (·.infers fact) ||
        (forwardFor limits rounds s).state.rules.any (·.infers fact)) := by
  obtain ⟨t, fact, hquestions, hmaybe, hfirst, hasked, hstate, hsubject⟩ :=
    forwardFor_ends limits rounds s h
  cases hfind : t.questions.find? (·.infers fact) with
  | none =>
      unfold askToSettle at hasked
      rw [hfind] at hasked
      cases hasked
  | some question =>
      have hask : askToSettle fact t = .ok
          (.pending ⟨question, (t.withdraw fact).questions.any (·.infers fact) ||
            (t.withdraw fact).rules.any (·.infers fact)⟩)
          (t.withdraw fact) [.asking question.description fact] := by
        unfold askToSettle
        rw [hfind]
      rw [hask] at hasked hstate hsubject
      cases hasked
      rw [hstate]
      refine ⟨fact, hmaybe, hquestions ▸ hfirst,
        ⟨hquestions ▸ hfind, ?_, hsubject fact rfl⟩, rfl⟩
      rw [hstate, ← hquestions]
      rfl

/-! ## Questions as a last resort -/

/-- No rule that is ruled out will hold when facts are added. -/
theorem Exhausted.not_yes {kb : KnowledgeBase} {s : Consultation} {goal fact : String}
    (h : Exhausted kb s goal fact) {rule : Rule} (hrule : rule ∈ kb.rules)
    (hinfers : rule.infers fact = true) :
    rule.condition.Finds s.facts .no ∧
      ∀ facts : Facts, facts.Extends s.facts → ¬rule.condition.Finds facts .yes := by
  have hno : rule.condition.Finds s.facts .no :=
    h.ruledOut rule (List.mem_filter.2 ⟨hrule, hinfers⟩)
  refine ⟨hno, ?_⟩
  rintro facts hmore ⟨finding, heval, hyes⟩
  obtain ⟨before, hbefore, hverdict⟩ := hno
  have hsame :=
    rule.condition.verdict_of_extends hmore hbefore (by simp [hverdict]) heval
  simp [hyes, hverdict] at hsame

/-- No question is asked that rules could still make unnecessary.  Backward chaining
asks about the fact that the goal in front leads to when all rules for it are ruled
out, for good.  Forward chaining asks when all rules that are left are undecided,
about what the first of them waits for that can be asked about.  Either way the
question is the first one that settles the fact, and the only one that is withdrawn. -/
theorem asked_as_last_resort (limits : Limits) (s : Consultation) (pending : Pending) :
    (∀ kb : KnowledgeBase, (backward kb limits s).result = .ok (.pending pending) →
      let s' := (backward kb limits s).state
      ∃ goal rest fact, s'.agenda = goal :: rest ∧
        s'.facts.resolve goal = .ok (.literal fact) ∧ s'.facts.get? fact = none ∧
        s.questions.find? (·.infers fact) = some pending.question ∧
        s'.questions = s.questions.eraseP (·.infers fact) ∧
        ∀ rule ∈ kb.rules, rule.infers fact = true → rule.condition.Finds s'.facts .no ∧
          ∀ facts : Facts, facts.Extends s'.facts → ¬rule.condition.Finds facts .yes) ∧
    ((forward limits s).result = .ok (.pending pending) →
      let s' := (forward limits s).state
      (∀ rule ∈ s'.rules, rule.condition.Finds s'.facts .maybe) ∧
      (∃ rule ∈ s'.rules, ∃ finding, rule.condition.evaluate s'.facts = .ok finding ∧
        ∃ fact ∈ finding.unknownFacts, pending.question.infers fact = true) ∧
      ∃ fact, FirstAskable s'.facts s.questions s'.rules fact ∧
        s.questions.find? (·.infers fact) = some pending.question ∧
        s'.questions = s.questions.eraseP (·.infers fact)) := by
  constructor
  · intro kb hasked
    obtain ⟨goal, rest, fact, hagenda, hexhausted, hasks, -⟩ := backwardFor_asks hasked
    exact ⟨goal, rest, fact, hagenda, hexhausted.hgoal, hexhausted.hnone,
      hasks.question,
      hasks.left, fun rule hrule hinfers => hexhausted.not_yes hrule hinfers⟩
  · intro hasked
    obtain ⟨fact, hmaybe, hfirst, hasks, -⟩ := forwardFor_asks hasked
    refine ⟨hmaybe, ?_, fact, hfirst, hasks.question, hasks.left⟩
    obtain ⟨before, rule, after, finding, hrules, -, heval, hfact⟩ := hfirst
    have hrule : rule ∈ (forward limits s).state.rules := by
      rw [show (forward limits s).state.rules = before ++ rule :: after from hrules]
      exact List.mem_append_right _ List.mem_cons_self
    exact ⟨rule, hrule, finding, heval, fact, List.mem_of_find?_eq_some hfact,
      hasks.infers⟩

/-- Whether there is a picnic. -/
def picnicQuestion : Question where
  description := "Shall we have a picnic?"
  options := [⟨"Yes", KeyMap.empty.insert "picnic" "yes"⟩,
    ⟨"No", KeyMap.empty.insert "picnic" "no"⟩]

/-- In dry weather there is a picnic, but it is wet; a hamper is for a picnic. -/
def picnicKnowledge : KnowledgeBase where
  rules := [
    { condition := .equals "weather" "dry"
      consequences := KeyMap.empty.insert "picnic" "yes" },
    { condition := .equals "picnic" "yes"
      consequences := KeyMap.empty.insert "hamper" "yes" }]
  questions := [picnicQuestion]
  goals := [{ name := "picnic" }]
  facts := KeyMap.empty.insert "weather" "wet"

/-- In either direction one has to ask for the picnic, since the rule for it does not
hold in wet weather and never will. -/
theorem picnic_asked_last :
    ((backward picnicKnowledge {} picnicKnowledge.start).result =
        .ok (.pending ⟨picnicQuestion, false⟩) ∧
      ∃ fact,
        (backward picnicKnowledge {} picnicKnowledge.start).state.facts.get? fact =
          none ∧
        picnicQuestion.infers fact = true ∧
        ∀ rule ∈ picnicKnowledge.rules, rule.infers fact = true →
          ∀ facts : Facts,
            facts.Extends
              (backward picnicKnowledge {} picnicKnowledge.start).state.facts →
            ¬rule.condition.Finds facts .yes) ∧
    (forward {} picnicKnowledge.start).result = .ok (.pending ⟨picnicQuestion, false⟩) ∧
      (forward {} picnicKnowledge.start).state.rules.map (·.condition) =
        [.equals "picnic" "yes"] ∧
      ∀ rule ∈ (forward {} picnicKnowledge.start).state.rules,
        rule.condition.Finds (forward {} picnicKnowledge.start).state.facts .maybe := by
  have hback : (backward picnicKnowledge {} picnicKnowledge.start).result =
      .ok (.pending ⟨picnicQuestion, false⟩) := rfl
  have hforth : (forward {} picnicKnowledge.start).result =
      .ok (.pending ⟨picnicQuestion, false⟩) := rfl
  obtain ⟨hbackward, hforward⟩ :=
    asked_as_last_resort {} picnicKnowledge.start ⟨picnicQuestion, false⟩
  obtain ⟨_, _, fact, -, -, hnone, hfind, -, hruledOut⟩ :=
    hbackward picnicKnowledge hback
  obtain ⟨hmaybe, -⟩ := hforward hforth
  have hinfers := List.find?_some hfind
  exact ⟨⟨hback, fact, hnone, hinfers, fun rule hrule h => (hruledOut rule hrule h).2⟩,
    hforth, rfl, hmaybe⟩

end Consult
