import Consult.Proofs.Asking
import Consult.Proofs.RuleOrder

/-!
# What skipping a question comes to

A question may be skipped if something else may still settle the fact that it is asked
for: another question, or a rule of the knowledge base that is undecided.  The two
directions find this out in their own ways.  Backward chaining counts questions, since
it asks when there is no rule; forward chaining looks at the rules that are left,
since those that it has taken out are done with.

When backward chaining goes on after a question has been skipped, the goal in front is
the same and its rules are still ruled out.  So it turns to the next question at once,
or else gives the fact up.

## Main results

* `Exhausted.backwardFor_of_some`, `Exhausted.backwardFor_of_none` — how
  backward chaining goes on.
* `Reachable.mem_rules_of_maybe` — the undecided rules are among those that are left.
* `skippable_iff_alternative` — what the mark of a question says, and what happens next.
-/

namespace Consult

/-! ## Turning to the next question -/

section Backward

variable {kb : KnowledgeBase} {limits : Limits} {s : Consultation} {goal fact : String}
  {rest : List String}

/-- The next question is handed out at once, and nothing is recorded. -/
theorem Exhausted.backwardFor_of_some (h : Exhausted kb s goal fact)
    (hagenda : s.agenda = goal :: rest) (rounds : Nat) {question : Question}
    (hfind : s.questions.find? (·.infers fact) = some question) :
    (∃ pending, (backwardFor kb limits (rounds + 1) s).result = .ok (.pending pending) ∧
        pending.question = question) ∧
      (backwardFor kb limits (rounds + 1) s).state = s.withdraw fact := by
  obtain ⟨hresult, hstate, -⟩ := h.turn_of_some limits hfind
  rw [Consult.backwardFor_of_some rounds hagenda hresult]
  exact ⟨⟨_, rfl, rfl⟩, hstate⟩

/-- If there is no other question, the fact is given up, whatever comes after that. -/
theorem Exhausted.backwardFor_of_none (h : Exhausted kb s goal fact)
    (hagenda : s.agenda = goal :: rest) (rounds : Nat)
    (hfind : s.questions.find? (·.infers fact) = none) :
    (backwardFor kb limits (rounds + 1) s).state.facts.AssumedUndefined fact := by
  obtain ⟨hresult, hstate⟩ := h.turn_of_none limits hfind
  have hassumed : (turn kb limits goal s).state.facts.AssumedUndefined fact := by
    rw [hstate]
    unfold Facts.AssumedUndefined
    rw [Consultation.get?_assumeUndefined]
    simp [Consultation.pop, h.hnone]
  rw [Consult.backwardFor_of_none rounds hagenda hresult]
  have hcontinues : (backwardFor kb limits rounds
      (turn kb limits goal s).state).state.Continues
      (turn kb limits goal s).state _ := backwardFor_continues kb limits rounds _
  exact hcontinues.keeps _ _ hassumed

/-- A call that hands out a question takes a round at least. -/
theorem exists_rounds_of_asks {rounds : Nat} {pending : Pending}
    (h : (backwardFor kb limits rounds s).result = .ok (.pending pending)) :
    ∃ fewer, rounds = fewer + 1 := by
  cases rounds with
  | succ fewer => exact ⟨fewer, rfl⟩
  | zero =>
      cases hagenda : s.agenda with
      | nil =>
          rw [backwardFor_of_nil 0 hagenda] at h
          cases h
      | cons goal rest =>
          rw [backwardFor_zero hagenda] at h
          cases h

end Backward

/-! ## What else may settle a fact -/

/-- Another question or an undecided rule may settle the fact. -/
def KnowledgeBase.Alternative (kb : KnowledgeBase) (s : Consultation) (fact : String) :
    Prop :=
  (∃ question ∈ s.questions, question.infers fact = true) ∨
    ∃ rule ∈ kb.rules, rule.infers fact = true ∧ rule.condition.Finds s.facts .maybe

/-- When all rules are ruled out, only another question may settle the fact. -/
theorem Exhausted.alternative_iff {kb : KnowledgeBase} {s : Consultation}
    {goal fact : String} (h : Exhausted kb s goal fact) :
    kb.Alternative s fact ↔ ∃ question ∈ s.questions, question.infers fact = true := by
  constructor
  · rintro (hquestion | ⟨rule, hrule, hinfers, hmaybe⟩)
    · exact hquestion
    · have hno := h.ruledOut rule (List.mem_filter.2 ⟨hrule, hinfers⟩)
      exact absurd hmaybe (Rule.Done.ruledOut hno).not_maybe
  · exact .inl

namespace KnowledgeBase

open Engine (Progress handedOut)

variable {kb : KnowledgeBase} {limits : Limits}

/-- When forward chaining is used, the undecided rules of the knowledge base are
among those that are left. -/
theorem Reachable.mem_rules_of_maybe (hforth : kb.strategy = .forward) {p : Progress}
    (h : kb.Reachable limits p) {rule : Rule} (hrule : rule ∈ kb.rules)
    (hmaybe : rule.condition.Finds p.state.facts .maybe) : rule ∈ p.state.rules := by
  obtain ⟨gone, hleft, hgone⟩ := h.spends hforth
  rcases hleft.mem_iff.1 hrule with hmem | hmem
  · exact absurd hmaybe (hgone rule hmem).done.not_maybe
  · exact hmem

/-- What a step asks about when backward chaining is used, and whether
there is anything else. -/
theorem step_asks_backward (hback : kb.strategy = .backward) {s : Consultation}
    {pending : Pending} (hasked : (kb.step limits s).result = .ok (.pending pending)) :
    ∃ goal rest fact, (kb.step limits s).state.agenda = goal :: rest ∧
      Exhausted kb (kb.step limits s).state goal fact ∧
      Asks s.questions fact pending (kb.step limits s) ∧
      (pending.skippable = true ↔ kb.Alternative (kb.step limits s).state fact) := by
  rw [step_eq_backward hback] at hasked ⊢
  obtain ⟨goal, rest, fact, hagenda, hexhausted, hasks, hskippable⟩ :=
    backwardFor_asks hasked
  refine ⟨goal, rest, fact, hagenda, hexhausted, hasks, ?_⟩
  rw [hexhausted.alternative_iff, hasks.left, hskippable, decide_eq_true_iff]
  exact one_lt_countP_iff hasks.question

/-- What a step asks about when forward chaining is used, and whether
there is anything else. -/
theorem Reachable.step_asks_forward (hforth : kb.strategy = .forward) {p : Progress}
    (hreach : kb.Reachable limits p) {pending : Pending}
    (hasked : (kb.step limits p.state).result = .ok (.pending pending)) :
    ∃ fact, Asks p.state.questions fact pending (kb.step limits p.state) ∧
      (pending.skippable = true ↔
        kb.Alternative (kb.step limits p.state).state fact) := by
  have hnext : kb.Reachable limits ⟨(kb.step limits p.state).state,
      handedOut (kb.step limits p.state).result ++ p.asked⟩ :=
    hreach.tail (.step p)
  have hleft : (kb.step limits p.state).state.rules ⊆ kb.rules := hnext.course.rules
  have hundecided : ∀ rule ∈ kb.rules,
      rule.condition.Finds (kb.step limits p.state).state.facts .maybe →
      rule ∈ (kb.step limits p.state).state.rules :=
    fun _ hrule hmaybe => hnext.mem_rules_of_maybe hforth hrule hmaybe
  rw [step_eq_forward hforth] at hasked hleft hundecided ⊢
  obtain ⟨fact, hmaybe, -, hasks, hskippable⟩ := forwardFor_asks hasked
  refine ⟨fact, hasks, ?_⟩
  rw [hskippable, Bool.or_eq_true, List.any_eq_true, List.any_eq_true]
  refine or_congr Iff.rfl ⟨?_, ?_⟩
  · rintro ⟨rule, hrule, hinfers⟩
    exact ⟨rule, hleft hrule, hinfers, hmaybe rule hrule⟩
  · rintro ⟨rule, hrule, hinfers, hopen⟩
    exact ⟨rule, hundecided rule hrule hopen, hinfers⟩

end KnowledgeBase

/-- A question may be skipped exactly if something else may still settle the fact that
it is asked for.  When backward chaining goes on after it has been skipped, it asks
the next question for that fact, if there is one, and nothing is recorded; if there is
none, the fact is assumed undefined. -/
theorem skippable_iff_alternative {e : Engine} {p : Engine.Progress}
    (hreach : e.Reachable p) {pending : Pending}
    (hasked : (e.step p.state).result = .ok (.pending pending)) :
    let s := (e.step p.state).state
    ∃ fact, (e.step p.state).subject? = some fact ∧
      pending.question.infers fact = true ∧
      (pending.skippable = true ↔
        (∃ question ∈ s.questions, question.infers fact = true) ∨
          ∃ rule ∈ e.knowledge.rules, rule.infers fact = true ∧
            rule.condition.Finds s.facts .maybe) ∧
      (e.knowledge.strategy = .backward →
        let s' := (Engine.skip pending s).state
        (pending.skippable = true → ∃ next, (e.step s').result = .ok (.pending next) ∧
          next.question ∈ s'.questions ∧ next.question.infers fact = true ∧
          (e.step s').state.facts = s'.facts) ∧
        (pending.skippable = false →
          (e.step s').state.facts.AssumedUndefined fact)) := by
  intro s
  cases hstrategy : e.knowledge.strategy with
  | forward =>
      obtain ⟨fact, hasks, hskippable⟩ := hreach.step_asks_forward hstrategy hasked
      exact ⟨fact, hasks.subject, hasks.infers, hskippable, nofun⟩
  | backward =>
      obtain ⟨goal, rest, fact, hagenda, hexhausted, hasks, hskippable⟩ :=
        KnowledgeBase.step_asks_backward hstrategy hasked
      refine ⟨fact, hasks.subject, hasks.infers, hskippable, fun _ => ?_⟩
      rw [hexhausted.alternative_iff] at hskippable
      -- Skipping changes nothing, so that the next step begins where this one ended.
      show (_ → ∃ next, (e.step s).result = .ok (.pending next) ∧
        next.question ∈ s.questions ∧
        next.question.infers fact = true ∧ (e.step s).state.facts = s.facts) ∧
        (_ → (e.step s).state.facts.AssumedUndefined fact)
      have hstep (s : Consultation) :
          e.step s = backwardFor e.knowledge e.limits e.limits.maxSteps s :=
        KnowledgeBase.step_eq_backward hstrategy e.limits s
      rw [hstep] at hasked
      obtain ⟨rounds, hrounds⟩ := exists_rounds_of_asks hasked
      rw [hstep, hrounds]
      cases hfind : s.questions.find? (·.infers fact) with
      | some question =>
          obtain ⟨⟨next, hresult, rfl⟩, hstate⟩ :=
            hexhausted.backwardFor_of_some hagenda rounds hfind
          have hmem := List.mem_of_find?_eq_some hfind
          have hinfers := List.find?_some hfind
          have hfacts := congrArg Consultation.facts hstate
          refine ⟨fun _ => ⟨next, hresult, hmem, hinfers, hfacts⟩, fun hnot => ?_⟩
          have hyes := hskippable.2 ⟨_, hmem, hinfers⟩
          simp [hnot] at hyes
      | none =>
          refine ⟨fun hyes => ?_,
            fun _ => hexhausted.backwardFor_of_none hagenda rounds hfind⟩
          obtain ⟨question, hmem, hinfers⟩ := hskippable.1 hyes
          exact absurd hinfers (List.find?_eq_none.1 hfind question hmem)

/-- Whether to have supper, asked in a first way. -/
def hungerQuestion : Question where
  description := "Are you hungry?"
  options := [⟨"Yes", KeyMap.empty.insert "supper" "yes"⟩]

/-- Whether to have supper, asked in a second way. -/
def guestsQuestion : Question where
  description := "Are there guests?"
  options := [⟨"Yes", KeyMap.empty.insert "supper" "yes"⟩]

/-- There are two questions on supper, and no rule. -/
def supperEngine : Engine where
  knowledge :=
    { questions := [hungerQuestion, guestsQuestion]
      goals := [{ name := "supper" }] }
  checked := by rfl

/-- The first question on supper, which may be skipped. -/
def hungerPending : Pending := ⟨hungerQuestion, true⟩

/-- The second one, which settles the matter. -/
def guestsPending : Pending := ⟨guestsQuestion, false⟩

/-- Supper when the first question has been skipped. -/
def supperInDoubt : Engine.Progress where
  state :=
    (Engine.skip hungerPending (supperEngine.step supperEngine.start).state).state
  asked := [hungerPending]

theorem reachable_supperInDoubt : supperEngine.Reachable supperInDoubt := by
  have hpending : (supperEngine.step supperEngine.start).result =
      .ok (.pending hungerPending) := rfl
  have hasked : supperEngine.Reachable
      ⟨(supperEngine.step supperEngine.start).state,
        Engine.handedOut (supperEngine.step supperEngine.start).result ++ []⟩ :=
    .single (.step ⟨supperEngine.start, []⟩)
  rw [hpending] at hasked
  exact hasked.tail (.skip (List.mem_singleton.2 rfl))

/-- When the first question on supper is skipped, the second one is asked; when that
is skipped too, there is no supper to speak of. -/
theorem supper_skipped :
    (supperEngine.step supperEngine.start).result = .ok (.pending hungerPending) ∧
    (∃ next, (supperEngine.step supperInDoubt.state).result = .ok (.pending next) ∧
      next.question.infers "supper" = true ∧
      (supperEngine.step supperInDoubt.state).state.facts = supperInDoubt.state.facts) ∧
    (supperEngine.step supperInDoubt.state).result = .ok (.pending guestsPending) ∧
    (supperEngine.step (Engine.skip guestsPending
      (supperEngine.step supperInDoubt.state).state).state).state.facts.AssumedUndefined
        "supper" := by
  have hfirst : (supperEngine.step supperEngine.start).result =
      .ok (.pending hungerPending) := rfl
  have hsecond : (supperEngine.step supperInDoubt.state).result =
      .ok (.pending guestsPending) := rfl
  refine ⟨hfirst, ?_, hsecond, ?_⟩
  · obtain ⟨fact, hsubject, -, -, hskipped⟩ :=
      skippable_iff_alternative (p := ⟨supperEngine.start, []⟩) .refl hfirst
    obtain rfl : "supper" = fact := Option.some.inj hsubject
    obtain ⟨next, hnext, -, hinfers, hfacts⟩ := (hskipped rfl).1 rfl
    exact ⟨next, hnext, hinfers, hfacts⟩
  · obtain ⟨fact, hsubject, -, -, hskipped⟩ :=
      skippable_iff_alternative reachable_supperInDoubt hsecond
    obtain rfl : "supper" = fact := Option.some.inj hsubject
    exact (hskipped rfl).2 rfl

end Consult
