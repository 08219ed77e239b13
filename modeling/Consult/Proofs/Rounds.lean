import Consult.Proofs.Turn

/-!
# The rounds of backward chaining

A round of backward chaining puts a name onto the agenda, takes the one in front off,
or is the last.  A name of a fact is recorded when it leaves the agenda, and what is
pursued is not recorded, so it is put there once at most; with what was there before,
this bounds the number of rounds.

A variable is not recorded itself when it leaves the agenda, and may be put there again.

## Main results

* `turn_round` — a turn is a round.
* `backwardFor_rounds` — what a call of backward chaining consists of.
* `Rounds.nodup` — no name of a fact is pursued twice.
* `Rounds.turns_le`, `Rounds.lt_of_stepLimit` — how many rounds there are.
-/

namespace Consult

/-! ## Names that are pursued -/

/-- The name that an event puts onto the agenda. -/
def Event.pushed? : Event → Option String
  | .pursuing fact _ => some fact
  | _ => none

namespace Run

variable {α β : Type}

/-- The names that a run puts onto the agenda, in order. -/
def pushed (r : Run α) : List String := r.trace.filterMap Event.pushed?

@[simp] theorem pushed_ok (a : α) (s : Consultation) (trace : List Event) :
    (ok a s trace).pushed = trace.filterMap Event.pushed? := rfl

@[simp] theorem pushed_fail (fault : Fault) (s : Consultation) (trace : List Event) :
    (fail fault s trace : Run α).pushed = trace.filterMap Event.pushed? := rfl

theorem pushed_andThen_of_ok {r : Run α} {a : α} (h : r.result = .ok a)
    (next : α → Consultation → Run β) :
    (r.andThen next).pushed = r.pushed ++ (next a r.state).pushed := by
  rw [andThen_of_ok h, pushed, List.filterMap_append]
  rfl

theorem pushed_andThen_of_error {r : Run α} {fault : Fault}
    (h : r.result = .error fault) (next : α → Consultation → Run β) :
    (r.andThen next).pushed = r.pushed := by
  rw [andThen_of_error h]
  rfl

/-- A run that pushes nothing, if neither of its parts does. -/
theorem pushed_andThen_eq_nil {r : Run α} {next : α → Consultation → Run β}
    (h : r.pushed = []) (hnext : ∀ a s, (next a s).pushed = []) :
    (r.andThen next).pushed = [] := by
  cases hr : r.result with
  | ok a => rw [pushed_andThen_of_ok hr, h, hnext, List.append_nil]
  | error fault => rw [pushed_andThen_of_error hr, h]

/-- What a run pushes is in front of the agenda afterwards. -/
def PushesOnto (agenda : List String) (r : Run α) : Prop :=
  (∃ fact, r.pushed = [fact] ∧ r.state.agenda = fact :: agenda) ∨
    r.pushed = [] ∧ r.state.agenda.length ≤ agenda.length

/-- A run that leaves the agenda no longer than it was pushes nothing. -/
theorem PushesOnto.eq_nil {r : Run α} {agenda : List String} (h : r.PushesOnto agenda)
    (hlength : r.state.agenda.length ≤ agenda.length) : r.pushed = [] := by
  rcases h with ⟨fact, -, hagenda⟩ | ⟨hpushed, -⟩
  · rw [hagenda, List.length_cons] at hlength
    exact absurd hlength (Nat.not_succ_le_self _)
  · exact hpushed

/-- A run that leaves a name in front of the agenda pushes that name. -/
theorem PushesOnto.eq_singleton {r : Run α} {agenda : List String} {fact : String}
    (h : r.PushesOnto agenda) (hagenda : r.state.agenda = fact :: agenda) :
    r.pushed = [fact] := by
  rcases h with ⟨other, hpushed, hother⟩ | ⟨-, hlength⟩
  · rw [hpushed, (List.cons.inj (hother.symm.trans hagenda)).1]
  · rw [hagenda, List.length_cons] at hlength
    exact absurd hlength (Nat.not_succ_le_self _)

end Run

theorem pushed_survey (facts : Facts) (rules : List Rule) :
    (survey facts rules).trace.filterMap Event.pushed? = [] := by
  induction rules with
  | nil => rfl
  | cons rule rules ih =>
      unfold survey
      split
      · rfl
      · split
        · rfl
        · simpa [Event.pushed?] using ih
        · simpa [Event.pushed?] using ih

theorem pushed_askFor (fact : String) (s : Consultation) :
    (askFor fact s).pushed = [] := by
  unfold askFor
  split
  · rfl
  · dsimp only
    split <;> rfl

theorem pushed_fire (s : Consultation) (rule : Rule) (finding : Finding) :
    (s.fire rule finding).2.filterMap Event.pushed? = [] := by
  simp [Consultation.fire, Event.pushed?]

theorem pushed_settle (kb : KnowledgeBase) (fact : String) (s : Consultation) :
    (settle kb fact s).pushed = [] := by
  have hsurvey := pushed_survey s.facts (kb.rulesInferring fact)
  unfold settle
  dsimp only
  split
  · simpa using hsurvey
  · next rule finding _ =>
    have hfire := pushed_fire s rule finding
    split <;> simpa [hsurvey] using hfire
  · split
    · exact Run.pushed_andThen_eq_nil (by simp [hsurvey, Event.pushed?]) fun _ t =>
        pushed_askFor fact t
    · simpa using hsurvey

/-- To settle a goal pushes nothing. -/
theorem pushed_solve (kb : KnowledgeBase) (goal : String) (s : Consultation) :
    (solve kb goal s).pushed = [] := by
  refine Run.pushed_andThen_eq_nil rfl fun resolution t => ?_
  cases resolution with
  | unknown fact => rfl
  | literal fact =>
      dsimp only
      split
      · rfl
      · exact pushed_settle kb fact t

theorem pushed_giveUp (goal : String) (s : Consultation) :
    (giveUp goal s).pushed = [] := by
  refine Run.pushed_andThen_eq_nil rfl fun resolution t => ?_
  cases resolution with
  | unknown fact => rfl
  | literal fact =>
      cases hconflict : (t.assumeUndefined fact).2 with
      | none => simp [hconflict, Event.pushed?]
      | some conflict => simp [hconflict, Event.pushed?]

theorem pushed_conclude (goal value : String) (s : Consultation) :
    (conclude goal value s).pushed = [] := by
  refine Run.pushed_andThen_eq_nil rfl fun found t => ?_
  cases found <;> rfl

theorem agenda_solve (kb : KnowledgeBase) (goal : String) (s : Consultation) :
    (solve kb goal s).state.agenda = s.agenda := by
  show (solve kb goal s).Post fun _ t => t.agenda = s.agenda
  refine (solve_cases kb goal s).mono fun _ t h => ?_
  cases h with
  | known hfired _ _ => exact hfired.agenda
  | _ => rfl

theorem agenda_giveUp (goal : String) (s : Consultation) :
    (giveUp goal s).state.agenda = s.agenda.tail := by
  show (giveUp goal s).Post fun _ t => t.agenda = s.agenda.tail
  refine Run.Post.andThen (Q := fun _ t => t = s.pop) rfl (fun resolution t ht => ?_)
    (fun _ t ht => ht ▸ rfl)
  subst ht
  cases resolution <;> rfl

theorem agenda_conclude (goal value : String) (s : Consultation) :
    (conclude goal value s).state.agenda = s.agenda.tail := by
  show (conclude goal value s).Post fun _ t => t.agenda = s.agenda.tail
  refine Run.Post.andThen (Q := fun _ t => t = s.pop) rfl (fun found t ht => ?_)
    (fun _ t ht => ht ▸ rfl)
  subst ht
  cases found <;> rfl

/-- A goal is pursued by pushing a name, or nothing is pushed. -/
theorem pursue_pushesOnto (limits : Limits) (goal : String) (finding : Finding)
    (s : Consultation) :
    (pursue limits goal finding s).PushesOnto s.agenda := by
  unfold pursue
  dsimp only
  split
  · next fact _ =>
    split
    · exact .inl ⟨fact, rfl, rfl⟩
    · exact .inr ⟨rfl, Nat.le_refl _⟩
  · refine .inr ⟨Run.pushed_andThen_eq_nil rfl fun _ t => pushed_giveUp goal t, ?_⟩
    show (giveUp goal s).state.agenda.length ≤ s.agenda.length
    rw [agenda_giveUp]
    exact (List.tail_sublist _).length_le

theorem conclude_pushesOnto (goal value : String) (s : Consultation) :
    (conclude goal value s).PushesOnto s.agenda := by
  refine .inr ⟨pushed_conclude goal value s, ?_⟩
  rw [agenda_conclude]
  exact (List.tail_sublist _).length_le

/-- A run pushes what its second part pushes, if the first one neither pushes nor
pops. -/
theorem Run.PushesOnto.andThen {α β : Type} {r : Run α}
    {next : α → Consultation → Run β} {agenda : List String} (hpushed : r.pushed = [])
    (hagenda : r.state.agenda = agenda)
    (hnext : ∀ a s, s.agenda = agenda → (next a s).PushesOnto agenda) :
    (r.andThen next).PushesOnto agenda := by
  cases hr : r.result with
  | error fault =>
      rw [andThen_of_error hr]
      exact .inr ⟨hpushed, Nat.le_of_eq (congrArg List.length hagenda)⟩
  | ok a =>
      have hrest := hnext a r.state hagenda
      rw [PushesOnto, pushed_andThen_of_ok hr, hpushed, List.nil_append,
        andThen_of_ok hr]
      exact hrest

/-- What a turn pushes is in front of the agenda afterwards. -/
theorem turn_pushesOnto (kb : KnowledgeBase) (limits : Limits) (goal : String)
    (s : Consultation) :
    (turn kb limits goal s).PushesOnto s.agenda := by
  -- What follows the pursuit of a goal pushes nothing.
  have goesOn {r : Run Unit} (hr : r.PushesOnto s.agenda) :
      (r.andThen fun _ t => Run.ok (none : Option Pending) t []).PushesOnto
          s.agenda := by
    rw [Run.andThen_ok]
    exact hr
  refine Run.PushesOnto.andThen (pushed_solve kb goal s) (agenda_solve kb goal s)
    fun solution t ht => ?_
  cases solution with
  | ask pending => exact .inr ⟨rfl, Nat.le_of_eq (congrArg List.length ht)⟩
  | unknown finding => exact goesOn (ht ▸ pursue_pushesOnto limits goal finding t)
  | known record =>
      refine Run.PushesOnto.andThen rfl ht fun resolution u hu => ?_
      cases resolution with
      | unknown fact => exact goesOn (hu ▸ pursue_pushesOnto limits goal _ u)
      | literal value => exact goesOn (hu ▸ conclude_pushesOnto goal value u)

/-! ## One round after the other -/

section

variable {kb : KnowledgeBase} {limits : Limits} {goal : String} {rest : List String}
  {s : Consultation}

theorem backwardFor_of_nil (rounds : Nat) (hagenda : s.agenda = []) :
    backwardFor kb limits rounds s = .ok .decided s [] := by
  unfold backwardFor
  simp only [hagenda]

theorem backwardFor_zero (hagenda : s.agenda = goal :: rest) :
    backwardFor kb limits 0 s = .fail (.stepLimit limits.maxSteps) s [] := by
  unfold backwardFor
  simp only [hagenda]

/-- A turn that fails is the last one. -/
theorem backwardFor_of_error (rounds : Nat) (hagenda : s.agenda = goal :: rest)
    {fault : Fault} (h : (turn kb limits goal s).result = .error fault) :
    backwardFor kb limits (rounds + 1) s =
      .fail fault (turn kb limits goal s).state (turn kb limits goal s).trace := by
  unfold backwardFor
  simp only [hagenda]
  rw [Run.andThen_of_error h]

/-- A turn that hands out a question is the last one. -/
theorem backwardFor_of_some (rounds : Nat) (hagenda : s.agenda = goal :: rest)
    {pending : Pending} (h : (turn kb limits goal s).result = .ok (some pending)) :
    backwardFor kb limits (rounds + 1) s =
      .ok (.pending pending) (turn kb limits goal s).state
        (turn kb limits goal s).trace := by
  unfold backwardFor
  simp only [hagenda]
  rw [Run.andThen_of_ok h]
  simp only [Run.ok, List.append_nil]

/-- After any other turn there is another round. -/
theorem backwardFor_of_none (rounds : Nat) (hagenda : s.agenda = goal :: rest)
    (h : (turn kb limits goal s).result = .ok none) :
    backwardFor kb limits (rounds + 1) s =
      ⟨(backwardFor kb limits rounds (turn kb limits goal s).state).result,
        (backwardFor kb limits rounds (turn kb limits goal s).state).state,
        (turn kb limits goal s).trace ++
          (backwardFor kb limits rounds (turn kb limits goal s).state).trace⟩ := by
  rw [backwardFor]
  simp only [hagenda]
  rw [Run.andThen_of_ok h]

end

/-! ## Rounds -/

/-- The values recorded in between are those of rules, or undefined. -/
structure KnowledgeBase.Grows (kb : KnowledgeBase) (facts facts' : Facts) : Prop where
  keeps : facts'.Keeps facts
  values : ∀ fact record, facts'.get? fact = some record →
    facts.get? fact = some record ∨
    (∃ rule ∈ kb.rules, rule.consequences.get? fact = some record.value) ∨
    record.value = undefinedValue

theorem KnowledgeBase.Grows.refl (kb : KnowledgeBase) (facts : Facts) :
    kb.Grows facts facts :=
  ⟨.refl facts, fun _ _ h => .inl h⟩

theorem Fired.grows {kb : KnowledgeBase} {s s' : Consultation} (h : Fired kb s s') :
    kb.Grows s.facts s'.facts := by
  cases h with
  | none => exact .refl kb s.facts
  | @rule rule finding hrule _ _ =>
      refine ⟨Consultation.keeps_apply s _ _, fun fact record hget => ?_⟩
      rcases Facts.of_get?_record hget with hold | ⟨-, hvalue, -⟩
      · exact .inl hold
      · exact .inr (.inl ⟨rule, hrule, hvalue⟩)

theorem grows_assumeUndefined (kb : KnowledgeBase) (s : Consultation) (fact : String) :
    kb.Grows s.facts (s.assumeUndefined fact).1.facts := by
  refine ⟨s.keeps_assumeUndefined fact, fun other record hget => ?_⟩
  rw [Consultation.get?_assumeUndefined] at hget
  cases hold : s.facts.get? other with
  | some old =>
      rw [hold] at hget
      exact .inl hget
  | none =>
      rw [hold, Option.none_or] at hget
      split at hget
      · cases hget
        exact .inr (.inr rfl)
      · cases hget

/-- What a round comes to: it puts a name that is neither recorded nor pursued onto
the agenda, takes the name in front off, which is recorded then unless it is a
variable, or ends the rounds. -/
inductive Round (kb : KnowledgeBase) (front : String) (s : Consultation) :
    Run (Option Pending) → Prop where
  | pushes {s' : Consultation} {fact : String} {r : Run (Option Pending)}
      (hresult : r.result = .ok none) (hwants : Wants kb front s s' fact)
      (hnone : s'.facts.get? fact = none) (hnew : fact ∉ s.agenda)
      (hstate : r.state = s'.push fact) (hpushed : r.pushed = [fact]) :
        Round kb front s r
  | pops {r : Run (Option Pending)} (hresult : r.result = .ok none)
      (hagenda : r.state.agenda = s.agenda.tail)
        (hgrows : kb.Grows s.facts r.state.facts)
      (hrecorded : isVariable front = false →
        ∃ record, r.state.facts.get? front = some record)
      (hpushed : r.pushed = []) : Round kb front s r
  | ends {r : Run (Option Pending)} (hresult : r.result ≠ .ok none)
      (hlimit : ∀ limit, r.result ≠ .error (.stepLimit limit))
        (hpushed : r.pushed = []) :
      Round kb front s r

/-- What a goal waits for is not recorded. -/
theorem Wants.get?_none {kb : KnowledgeBase} {goal fact : String} {s s' : Consultation}
    (h : Wants kb goal s s' fact) : s'.facts.get? fact = none := by
  cases h with
  | target hgoal => exact Facts.get?_of_resolve_unknown hgoal
  | value _ _ _ hvalue => exact Facts.get?_of_resolve_unknown hvalue
  | rule _ hfacts hmem hawaits =>
      obtain ⟨-, rule, -, heval⟩ := hfacts.undecided _ hmem
      exact rule.condition.get?_of_awaits heval hawaits

/-- A turn is a round. -/
theorem turn_round (kb : KnowledgeBase) (limits : Limits) {front : String}
    {rest : List String} {s : Consultation} (hfront : s.agenda = front :: rest) :
    Round kb front s (turn kb limits front s) := by
  have hpushes := turn_pushesOnto kb limits front s
  have hturn : Turn kb limits front s (turn kb limits front s).result
    (turn kb limits front s).state := turn_cases kb limits front s
  generalize turn kb limits front s = r at hpushes hturn
  obtain ⟨result, state, trace⟩ := r
  have htail : s.agenda.tail.length ≤ s.agenda.length := (List.tail_sublist _).length_le
  have hplain {name : String} (hgoal : s.facts.resolve front = .ok (.literal name))
      (h : isVariable front = false) : name = front := by
    rw [Facts.resolve_of_not_isVariable s.facts h] at hgoal
    cases hgoal
    rfl
  cases hturn with
  | circular hgoal =>
      obtain ⟨chain, rfl⟩ := Facts.circular_of_resolve hgoal
      exact .ends nofun nofun (hpushes.eq_nil (Nat.le_refl _))
  | circularRule _ heval =>
      obtain ⟨chain, rfl⟩ := Condition.circular_of_evaluate _ heval
      exact .ends nofun nofun (hpushes.eq_nil (Nat.le_refl _))
  | circularValue hfired _ _ hvalue =>
      obtain ⟨chain, rfl⟩ := Facts.circular_of_resolve hvalue
      exact .ends nofun nofun (hpushes.eq_nil
        (Nat.le_of_eq (congrArg List.length hfired.agenda)))
  | overflow hwants _ _ =>
      exact .ends nofun nofun (hpushes.eq_nil
        (Nat.le_of_eq (congrArg List.length hwants.fired.agenda)))
  | asked _ _ _ => exact .ends nofun nofun (hpushes.eq_nil (Nat.le_refl _))
  | @pushed s' fact hwants hnew _ =>
      rw [hwants.fired.agenda] at hnew
      have hagenda : (s'.push fact).agenda = fact :: s.agenda := by
        rw [← hwants.fired.agenda]
        rfl
      exact .pushes rfl hwants hwants.get?_none hnew rfl (hpushes.eq_singleton hagenda)
  | dropped hgoal _ =>
      have hvariable : isVariable front = false →
          ∃ record, s.pop.facts.get? front = some record := by
        intro h
        rw [Facts.resolve_of_not_isVariable s.facts h] at hgoal
        cases hgoal
      exact .pops rfl rfl (.refl kb s.facts) hvariable (hpushes.eq_nil htail)
  | @stalled s' name _ record hfired hgoal hget _ _ =>
      have hagenda : s'.pop.agenda = s.agenda.tail := congrArg List.tail hfired.agenda
      refine .pops rfl hagenda hfired.grows (fun h => ?_)
        (hpushes.eq_nil (hagenda ▸ htail))
      obtain rfl := hplain hgoal h
      exact ⟨record, hget⟩
  | @assumed name _ hgoal hfacts _ _ =>
      refine .pops rfl rfl (grows_assumeUndefined kb s.pop name) (fun h => ?_)
        (hpushes.eq_nil htail)
      have hget : (s.pop.assumeUndefined name).1.facts.get? name =
          some (Facts.undefinedRecord name) := by
        rw [Consultation.get?_assumeUndefined]
        simp [Consultation.pop, hfacts.hnone]
      obtain rfl := hplain hgoal h
      exact ⟨_, hget⟩
  | @concluded s' name _ record hfired hgoal hget _ =>
      have hagenda : s'.pop.agenda = s.agenda.tail := congrArg List.tail hfired.agenda
      refine .pops rfl hagenda hfired.grows (fun h => ?_)
        (hpushes.eq_nil (hagenda ▸ htail))
      obtain rfl := hplain hgoal h
      exact ⟨record, hget⟩

/-- The number of rounds that `backwardFor` takes: those that go on, and the last
one. -/
def backwardTurns (kb : KnowledgeBase) (limits : Limits) :
    (rounds : Nat) → Consultation → Nat
  | 0, _ => 0
  | rounds + 1, s =>
    match s.agenda with
    | [] => 0
    | goal :: _ =>
      match (turn kb limits goal s).result with
      | .ok none => backwardTurns kb limits rounds (turn kb limits goal s).state + 1
      | _ => 1

/-- `Rounds kb rounds s names turns x`: of so many rounds from `s` on, as many as
`turns` are taken; they put `names` onto the agenda, in this order, and come to `x`. -/
inductive Rounds (kb : KnowledgeBase) (limits : Limits) :
    Nat → Consultation → List String → Nat → Except Fault Outcome → Prop where
  | done {rounds : Nat} {s : Consultation} (hagenda : s.agenda = []) :
      Rounds kb limits rounds s [] 0 (.ok .decided)
  | spent (s : Consultation) (hagenda : s.agenda ≠ []) :
      Rounds kb limits 0 s [] 0 (.error (.stepLimit limits.maxSteps))
  | ends {rounds : Nat} {s : Consultation} {x : Except Fault Outcome}
      (hlimit : ∀ limit, x ≠ .error (.stepLimit limit)) :
        Rounds kb limits (rounds + 1) s [] 1 x
  | pushes {rounds turns : Nat} {s s' : Consultation} {front fact : String}
      {rest names : List String} {x : Except Fault Outcome}
        (hfront : s.agenda = front :: rest)
      (hwants : Wants kb front s s' fact) (hnone : s'.facts.get? fact = none)
      (hnew : fact ∉ s.agenda)
        (hrest : Rounds kb limits rounds (s'.push fact) names turns x) :
      Rounds kb limits (rounds + 1) s (fact :: names) (turns + 1) x
  | pops {rounds turns : Nat} {s s' : Consultation} {front : String}
      {rest names : List String}
      {x : Except Fault Outcome} (hfront : s.agenda = front :: rest)
        (hagenda : s'.agenda = rest)
      (hgrows : kb.Grows s.facts s'.facts)
      (hrecorded : isVariable front = false →
        ∃ record, s'.facts.get? front = some record)
      (hrest : Rounds kb limits rounds s' names turns x) :
      Rounds kb limits (rounds + 1) s names (turns + 1) x

/-- What a call of backward chaining consists of. -/
theorem backwardFor_rounds (kb : KnowledgeBase) (limits : Limits) (rounds : Nat) :
    ∀ s, Rounds kb limits rounds s (backwardFor kb limits rounds s).pushed
      (backwardTurns kb limits rounds s) (backwardFor kb limits rounds s).result := by
  induction rounds with
  | zero =>
      intro s
      unfold backwardFor
      split
      · next hagenda => exact .done hagenda
      · next goal rest hagenda => exact .spent s (by simp [hagenda])
  | succ rounds ih =>
      intro s
      cases hfront : s.agenda with
      | nil =>
        unfold backwardFor backwardTurns
        simp only [hfront]
        exact .done hfront
      | cons front rest =>
        have hround := turn_round kb limits hfront
        unfold backwardFor backwardTurns
        simp only [hfront]
        generalize turn kb limits front s = r at hround
        cases hround with
        | @pushes s' fact _ hresult hwants hnone hnew hstate hpushed =>
            rw [Run.pushed_andThen_of_ok hresult, Run.andThen_of_ok hresult, hpushed,
              hresult, hstate]
            exact .pushes hfront hwants hnone hnew (ih (s'.push fact))
        | pops hresult hagenda hgrows hrecorded hpushed =>
            rw [Run.pushed_andThen_of_ok hresult, Run.andThen_of_ok hresult,
              hpushed, hresult]
            rw [hfront, List.tail_cons] at hagenda
            exact .pops hfront hagenda hgrows hrecorded (ih r.state)
        | ends hresult hlimit hpushed =>
            cases hr : r.result with
            | error fault =>
                rw [Run.pushed_andThen_of_error hr, Run.andThen_of_error hr, hpushed]
                exact .ends fun limit h =>
                  hlimit limit (hr.trans (congrArg _ (Except.error.inj h)))
            | ok pending =>
                cases pending with
                | none => exact absurd hr hresult
                | some pending =>
                    rw [Run.pushed_andThen_of_ok hr, Run.andThen_of_ok hr, hpushed]
                    exact .ends fun limit h => by cases h

/-! ## How many rounds there are -/

namespace Rounds

variable {kb : KnowledgeBase} {limits : Limits} {rounds turns : Nat} {s : Consultation}
  {names texts : List String} {x : Except Fault Outcome}

/-- A name of a fact that is pursued was neither recorded nor on the agenda. -/
theorem fresh (h : Rounds kb limits rounds s names turns x) :
    ∀ name ∈ names, isVariable name = false → name ∉ s.agenda ∧
      s.facts.get? name = none := by
  induction h with
  | done _ => simp
  | spent _ _ => simp
  | ends _ => simp
  | @pushes _ _ s s' front fact _ _ _ hfront hwants hnone hnew _ ih =>
      intro name hname hplain
      rcases List.mem_cons.1 hname with rfl | hname
      · exact ⟨hnew, hwants.fired.keeps.get?_none hnone⟩
      · obtain ⟨hagenda, hget⟩ := ih name hname hplain
        refine ⟨fun hmem => hagenda ?_, hwants.fired.keeps.get?_none hget⟩
        exact List.mem_cons_of_mem fact (hwants.fired.agenda ▸ hmem)
  | @pops _ _ s s' front rest _ _ hfront hagenda hgrows hrecorded _ ih =>
      intro name hname hplain
      obtain ⟨hrest, hget⟩ := ih name hname hplain
      refine ⟨fun hmem => ?_, hgrows.keeps.get?_none hget⟩
      rw [hfront] at hmem
      rcases List.mem_cons.1 hmem with rfl | hmem
      · -- The name in front is recorded once it is off the agenda.
        obtain ⟨record, hrecord⟩ := hrecorded hplain
        rw [hget] at hrecord
        cases hrecord
      · exact hrest (hagenda ▸ hmem)

/-- No name of a fact is pursued twice. -/
theorem nodup (h : Rounds kb limits rounds s names turns x) :
    (names.filter (!isVariable ·)).Nodup := by
  induction h with
  | done _ => simp
  | spent _ _ => simp
  | ends _ => simp
  | @pushes _ _ _ _ _ fact _ names _ _ _ _ _ hrest ih =>
      rw [List.filter_cons]
      split
      · next hplain =>
        refine List.nodup_cons.2 ⟨fun hmem => ?_, ih⟩
        have hnew :=
          (hrest.fresh fact (List.mem_of_mem_filter hmem) (by simpa using hplain)).1
        exact hnew List.mem_cons_self
      · exact ih
  | pops _ _ _ _ _ ih => exact ih

/-- Every round puts a name onto the agenda or takes one off, but for the last. -/
theorem turns_le (h : Rounds kb limits rounds s names turns x) :
    turns ≤ s.agenda.length + 2 * names.length + 1 := by
  induction h with
  | done _ => exact Nat.zero_le _
  | spent _ _ => exact Nat.zero_le _
  | ends _ => exact Nat.le_add_left _ _
  | @pushes _ _ s s' _ fact _ _ _ _ hwants _ _ _ ih =>
      have hlength : (s'.push fact).agenda.length = s.agenda.length + 1 :=
        congrArg (List.length · + 1) hwants.fired.agenda
      rw [hlength] at ih
      rw [List.length_cons]
      omega
  | pops hfront hagenda _ _ _ ih =>
      rw [hagenda] at ih
      rw [hfront, List.length_cons]
      omega

/-- If the limit ends the rounds, it is less than there may be. -/
theorem lt_of_stepLimit (h : Rounds kb limits rounds s names turns x) {limit : Nat}
    (hlimit : x = .error (.stepLimit limit)) :
    rounds < s.agenda.length + 2 * names.length := by
  induction h with
  | done _ => cases hlimit
  | spent s hagenda =>
      have hpos := List.length_pos_of_ne_nil hagenda
      omega
  | ends hother => exact absurd hlimit (hother limit)
  | @pushes _ _ s s' _ fact _ _ _ _ hwants _ _ _ ih =>
      have hlength : (s'.push fact).agenda.length = s.agenda.length + 1 :=
        congrArg (List.length · + 1) hwants.fired.agenda
      have hrest := ih hlimit
      rw [hlength] at hrest
      rw [List.length_cons]
      omega
  | pops hfront hagenda _ _ _ ih =>
      have hrest := ih hlimit
      rw [hagenda] at hrest
      rw [hfront, List.length_cons]
      omega

end Rounds

end Consult
