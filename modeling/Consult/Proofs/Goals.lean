import Consult.Proofs.Naming

/-!
# What becomes of the goals

A goal leaves the agenda when it has a value, when it is assumed undefined, or
because it waits for a fact that is on the agenda already.  In the last case it
may still come by a value, with that fact: a goal that is recorded does so, since
its value is the value of the fact in the end.  A goal that is itself a variable
need not, for the fact only gives it another name.

## Main results

* `turn_leaves` — how a turn may take the goal in front off the agenda.
* `Course.standing` — where the declared goals stand.
* `goals_settled_iff` — when a consultation that is decided has settled its goals.
* `goals_settled_of_plainlyNamed` — it has if all names are plain.
-/

namespace Consult

/-! ## Chains on the way -/

namespace Facts

/-- `facts.Passes text fact`: the chain of variables that starts with `text`
comes to the fact, be it recorded or not. -/
inductive Passes (facts : Facts) : String → String → Prop where
  | target {text fact : String} (ht : target? text = some fact) : Passes facts text fact
  | link {text other fact : String} {record : Record} (ht : target? text = some other)
      (hget : facts.get? other = some record) (hrest : Passes facts record.value fact) :
      Passes facts text fact

variable {facts : Facts} {text fact : String}

theorem Passes.of_extends {facts' : Facts} (hmore : facts'.Extends facts)
    (h : facts.Passes text fact) : facts'.Passes text fact := by
  induction h with
  | target ht => exact .target ht
  | link ht hget _ ih =>
      obtain ⟨record', hget', hsame⟩ := hmore _ _ hget
      rw [← hsame] at ih
      exact .link ht hget' ih

/-- A chain that waits for a fact comes to it. -/
theorem passes_of_resolve_unknown (h : facts.resolve text = .ok (.unknown fact)) :
    facts.Passes text fact := by
  obtain ⟨through, hlead⟩ := resolve_eq_ok_iff.1 h
  generalize hend : Resolution.unknown fact = r at hlead
  induction hlead with
  | literal _ => cases hend
  | unknown ht _ =>
      cases hend
      exact .target ht
  | link ht hget hrest ih =>
      subst hend
      exact .link ht hget (ih (resolve_eq_ok_iff.2 ⟨_, hrest⟩) rfl)

/-- A chain that comes to a recorded fact ends where the value of the fact does. -/
theorem Passes.resolve {record : Record} {r : Resolution} (h : facts.Passes text fact)
    (hget : facts.get? fact = some record)
    (hvalue : facts.resolve record.value = .ok r) :
    facts.resolve text = .ok r := by
  induction h with
  | target ht => exact (resolve_of_target? ht hget).2 hvalue
  | link ht hget' _ ih => exact (resolve_of_target? ht hget').2 (ih hget)

end Facts

/-! ## Leaving the agenda -/

/-- How a turn of the goal in front, from `s` to `s'`, may change the agenda. -/
inductive Leaves (goal : String) (s s' : Consultation) : Prop where
  | stays (hagenda : s.agenda ⊆ s'.agenda)
  | settled {value : String} (hagenda : s'.agenda = s.agenda.tail)
      (hvalue : s'.facts.lookup goal = .ok (some value))
  | dropped {fact : String} (hagenda : s'.agenda = s.agenda.tail)
      (hgoal : s.facts.resolve goal = .ok (.unknown fact)) (hmem : fact ∈ s.agenda)
  | stalled {name fact : String} {record : Record} (hagenda : s'.agenda = s.agenda.tail)
      (hgoal : s'.facts.resolve goal = .ok (.literal name))
      (hget : s'.facts.get? name = some record)
      (hvalue : s'.facts.resolve record.value = .ok (.unknown fact))
        (hmem : fact ∈ s.agenda)

/-- How a turn may take the goal in front off the agenda. -/
theorem turn_leaves (kb : KnowledgeBase) (limits : Limits) (goal : String)
    (s : Consultation) :
    Leaves goal s (turn kb limits goal s).state := by
  show (turn kb limits goal s).Post fun _ s' => Leaves goal s s'
  refine (turn_cases kb limits goal s).mono ?_
  intro x t hturn
  cases hturn with
  | circular _ => exact .stays fun _ h => h
  | circularRule _ _ => exact .stays fun _ h => h
  | circularValue hfired _ _ _ => exact .stays fun _ h => hfired.agenda ▸ h
  | overflow hwants _ _ => exact .stays fun _ h => hwants.fired.agenda ▸ h
  | asked _ _ _ => exact .stays fun _ h => h
  | @pushed s' fact hwants hnew hroom =>
      refine .stays fun name h => ?_
      have hold : name ∈ s'.agenda := hwants.fired.agenda ▸ h
      exact List.mem_cons_of_mem _ hold
  | dropped hgoal hmem => exact .dropped rfl hgoal hmem
  | @stalled s' name fact record hfired hgoal hget hvalue hmem =>
      have hagenda : s'.pop.agenda = s.agenda.tail := congrArg List.tail hfired.agenda
      have hgoal' := hfired.keeps.extends.resolve_literal hgoal
      exact .stalled hagenda hgoal' hget hvalue (hfired.agenda ▸ hmem)
  | @assumed name findings hgoal hfacts hpursued hquestions =>
      have hget : (s.pop.assumeUndefined name).1.facts.get? name =
          some (Facts.undefinedRecord name) := by
        rw [Consultation.get?_assumeUndefined]
        simp [Consultation.pop, hfacts.hnone]
      have hgoal' :=
        (Consultation.keeps_assumeUndefined s.pop name).extends.resolve_literal hgoal
      have hundefined := Facts.resolve_of_not_isVariable
        (s.pop.assumeUndefined name).1.facts Facts.isVariable_undefinedValue
      exact .settled rfl (Facts.lookup_eq_some_iff.2
        ⟨name, _, hgoal', hget, hundefined⟩)
  | @concluded s' name value record hfired hgoal hget hvalue =>
      have hagenda : s'.pop.agenda = s.agenda.tail := congrArg List.tail hfired.agenda
      have hgoal' := hfired.keeps.extends.resolve_literal hgoal
      exact .settled hagenda
        (Facts.lookup_eq_some_iff.2 ⟨name, record, hgoal', hget, hvalue⟩)

/-! ## Where a goal stands -/

/-- The name has a value. -/
def Facts.Settles (facts : Facts) (name : String) : Prop :=
  ∃ value, facts.lookup name = .ok (some value)

/-- Nothing on the agenda needs to give the name a value: it is in front and
waits for a fact that is on the agenda already, or it is recorded and its value
waits for something that is no name of a fact but a variable. -/
inductive Consultation.Adrift (s : Consultation) (name : String) : Prop where
  | target {fact : String} (hfront : s.agenda.head? = some name)
      (hname : s.facts.resolve name = .ok (.unknown fact)) (hmem : fact ∈ s.agenda)
  | value {fact text : String} {record : Record}
      (hname : s.facts.resolve name = .ok (.literal fact))
      (hget : s.facts.get? fact = some record)
      (hvalue : s.facts.resolve record.value = .ok (.unknown text))
        (hvar : isVariable text = true)

/-- Where a name stands that has once been on the agenda: it is pursued, or has a
value, or has the value of a fact that is pursued, or has been adrift. -/
inductive KnowledgeBase.Standing (kb : KnowledgeBase) (limits : Limits)
    (s : Consultation) (name : String) : Prop where
  | pursued (hmem : name ∈ s.agenda)
  | settled (hsettles : s.facts.Settles name)
  | leaning {fact other : String} {record : Record}
      (hname : s.facts.resolve name = .ok (.literal fact))
        (hget : s.facts.get? fact = some record)
      (hpasses : s.facts.Passes record.value other) (hplain : isVariable other = false)
      (hmem : other ∈ s.agenda)
  | adrift {m : Consultation} (hm : kb.Course limits kb.start m)
      (hs : kb.Course limits m s)
      (hadrift : m.Adrift name)

namespace KnowledgeBase

open Engine (reply_cases)

variable {kb : KnowledgeBase} {limits : Limits} {s s' : Consultation} {name : String}

/-- A recorded name whose value waits for a fact that is on the agenda, behind
the goal in front, leans on this fact or is adrift. -/
private theorem standing_of_waits {fact goal text : String} {record : Record}
    (hcourse : kb.Course limits kb.start s')
    (hname : s'.facts.resolve name = .ok (.literal fact))
    (hget : s'.facts.get? fact = some record)
    (hvalue : s'.facts.resolve record.value = .ok (.unknown text))
    (hmem : text ∈ goal :: s'.agenda) (hgoal : isVariable text = false → text ≠ goal) :
    kb.Standing limits s' name := by
  cases hvar : isVariable text with
  | true => exact .adrift hcourse .refl (.value hname hget hvalue hvar)
  | false =>
      have hrest : text ∈ s'.agenda := by
        rcases List.mem_cons.1 hmem with heq | hrest
        · exact absurd heq (hgoal hvar)
        · exact hrest
      exact .leaning hname hget (Facts.passes_of_resolve_unknown hvalue) hvar hrest

/-- A goal whose recorded value waits for a fact does not wait for itself. -/
private theorem ne_of_waits {facts : Facts} {goal fact text : String} {record : Record}
    (hgoal : facts.resolve goal = .ok (.literal fact))
    (hget : facts.get? fact = some record)
    (hvalue : facts.resolve record.value = .ok (.unknown text))
    (hplain : isVariable text = false) :
    text ≠ goal := by
  rintro rfl
  have hself := facts.resolve_of_not_isVariable hplain
  rw [hself] at hgoal
  cases hgoal
  rw [Facts.get?_of_resolve_unknown hvalue] at hget
  cases hget

/-- Where a name stands when nothing is taken off the agenda. -/
private theorem Standing.of_subset (h : kb.Standing limits s name)
    (hmoves : kb.Course limits s s') (hagenda : s.agenda ⊆ s'.agenda) :
    kb.Standing limits s' name := by
  have hmore := hmoves.keeps.extends
  cases h with
  | pursued hmem => exact .pursued (hagenda hmem)
  | settled hsettles =>
      obtain ⟨value, hvalue⟩ := hsettles
      exact .settled ⟨value, hmore.lookup_some hvalue⟩
  | leaning hname hget hpasses hplain hmem =>
      exact .leaning (hmore.resolve_literal hname) (hmoves.keeps _ _ hget)
        (hpasses.of_extends hmore) hplain (hagenda hmem)
  | adrift hm hs hadrift => exact .adrift hm (hs.trans hmoves) hadrift

/-- Where a name stands when the goal in front is taken off the agenda, unless it
is that goal or leans on it. -/
private theorem Standing.of_tail {goal : String} {rest : List String}
    (h : kb.Standing limits s name) (hmoves : kb.Course limits s s')
    (hfront : s.agenda = goal :: rest) (hagenda : s'.agenda = rest) :
    kb.Standing limits s' name ∨ name = goal ∨ isVariable goal = false ∧ ∃ fact record,
      s'.facts.resolve name = .ok (.literal fact) ∧ s'.facts.get? fact = some record ∧
        s'.facts.Passes record.value goal := by
  have hmore := hmoves.keeps.extends
  cases h with
  | pursued hmem =>
      rw [hfront, ← hagenda] at hmem
      rcases List.mem_cons.1 hmem with rfl | hrest
      · exact .inr (.inl rfl)
      · exact .inl (.pursued hrest)
  | settled hsettles =>
      obtain ⟨value, hvalue⟩ := hsettles
      exact .inl (.settled ⟨value, hmore.lookup_some hvalue⟩)
  | leaning hname hget hpasses hplain hmem =>
      have hname' := hmore.resolve_literal hname
      have hget' := hmoves.keeps _ _ hget
      have hpasses' := hpasses.of_extends hmore
      rw [hfront, ← hagenda] at hmem
      rcases List.mem_cons.1 hmem with rfl | hrest
      · exact .inr (.inr ⟨hplain, _, _, hname', hget', hpasses'⟩)
      · exact .inl (.leaning hname' hget' hpasses' hplain hrest)
  | adrift hm hs hadrift => exact .inl (.adrift hm (hs.trans hmoves) hadrift)

/-- Where a name stands after the turn of the goal in front. -/
private theorem Standing.of_leaves {goal : String} {rest : List String}
    (h : kb.Standing limits s name) (hcourse : kb.Course limits kb.start s)
    (hmoves : kb.Course limits s s') (hfront : s.agenda = goal :: rest)
    (hleaves : Leaves goal s s') : kb.Standing limits s' name := by
  have htail : s.agenda.tail = rest := by
    rw [hfront, List.tail_cons]
  -- A plain goal stands for itself, so what leans on it has the value of its record.
  have hself (hplain : isVariable goal = false) :
      s'.facts.resolve goal = .ok (.literal goal) ∧
        s.facts.resolve goal = .ok (.literal goal) :=
    ⟨Facts.resolve_of_not_isVariable _ hplain, Facts.resolve_of_not_isVariable _ hplain⟩
  cases hleaves with
  | stays hagenda => exact h.of_subset hmoves hagenda
  | @settled value hagenda hvalue =>
      rcases h.of_tail hmoves hfront (hagenda.trans htail) with
        hstands | rfl | ⟨hplain, fact, record, hname, hget, hpasses⟩
      · exact hstands
      · exact .settled ⟨value, hvalue⟩
      · obtain ⟨other, record', hgoal, hget', hvalue'⟩ :=
          Facts.lookup_eq_some_iff.1 hvalue
        rw [(hself hplain).1] at hgoal
        cases hgoal
        have hends := hpasses.resolve hget' hvalue'
        exact .settled ⟨value, Facts.lookup_eq_some_iff.2
          ⟨fact, record, hname, hget, hends⟩⟩
  | @dropped text hagenda hgoal hmem =>
      rcases h.of_tail hmoves hfront (hagenda.trans htail) with
        hstands | rfl | ⟨hplain, -⟩
      · exact hstands
      · exact .adrift hcourse hmoves (.target (by rw [hfront]; rfl) hgoal hmem)
      · rw [(hself hplain).2] at hgoal
        cases hgoal
  | @stalled other text record' hagenda hgoal hget' hvalue hmem =>
      have hcourse' := hcourse.trans hmoves
      have hmem' : text ∈ goal :: s'.agenda := by
        rw [hagenda, htail, ← hfront]
        exact hmem
      have hne := ne_of_waits hgoal hget' hvalue
      rcases h.of_tail hmoves hfront (hagenda.trans htail) with
        hstands | rfl | ⟨hplain, fact, record, hname, hget, hpasses⟩
      · exact hstands
      · exact standing_of_waits hcourse' hgoal hget' hvalue hmem' hne
      · rw [(hself hplain).1] at hgoal
        cases hgoal
        exact standing_of_waits hcourse' hname hget
          (hpasses.resolve hget' hvalue) hmem' hne

/-- A move takes nothing off the agenda, or is the turn of the goal in front. -/
theorem Moves.leaves (h : kb.Moves limits s s') :
    s.agenda ⊆ s'.agenda ∨ ∃ goal rest, s.agenda = goal :: rest ∧ Leaves goal s s' := by
  cases h with
  | @turn _ goal rest _ hfront =>
      exact .inr ⟨goal, rest, hfront, turn_leaves _ _ goal s⟩
  | sweep _ _ =>
      left
      obtain ⟨left, -, hsame | ⟨rule, -, finding, -, -, hfired⟩⟩ := swept_cases s
      · rw [hsame]
        exact fun _ h => h
      · rw [hfired]
        exact fun _ h => h
  | withdraw _ _ _ => exact .inl fun _ h => h
  | @reply pending _ index _ =>
      left
      rcases reply_cases pending index s with hsame | ⟨choice, -, hchosen⟩
      · rw [hsame]
        exact fun _ h => h
      · rw [hchosen]
        exact fun _ h => h

/-- Where the declared goals stand. -/
theorem Course.standing (h : kb.Course limits kb.start s) {goal : Goal}
    (hgoal : goal ∈ kb.goals) :
    kb.Standing limits s goal.name := by
  induction h with
  | refl => exact .pursued (mem_seed.2 ⟨goal, hgoal, .inl rfl⟩)
  | @tail s s' hcourse hmove ih =>
      rcases hmove.leaves with hagenda | ⟨front, rest, hfront, hleaves⟩
      · exact ih.of_subset (.single hmove) hagenda
      · exact ih.of_leaves hcourse (.single hmove) hfront hleaves

/-! ## When all is decided -/

/-- Backward chaining is done when the agenda is empty. -/
theorem agenda_backwardFor {kb : KnowledgeBase} {limits : Limits} (rounds : Nat) :
    ∀ s, (backwardFor kb limits rounds s).Post fun x s' =>
      x = .ok .decided → s'.agenda = [] := by
  refine backwardFor_post_of_turn
    (P := fun _ _ x s' => x = .ok .decided → s'.agenda = []) ?_ ?_ ?_ rounds
  · exact fun _ _ hagenda _ => hagenda
  · exact fun _ _ => nofun
  · intro _ s goal rest _
    have hturn : (Consult.turn kb limits goal s).Post fun _ _ => True := trivial
    refine hturn.mono ?_
    rintro (fault | _ | pending) t -
    · exact nofun
    · exact fun _ _ hrest => hrest
    · exact nofun

theorem agenda_of_decided (hback : kb.strategy = .backward)
    (hdecided : (kb.step limits s).result = .ok .decided) :
    (kb.step limits s).state.agenda = [] := by
  rw [step_eq_backward hback] at hdecided ⊢
  exact agenda_backwardFor limits.maxSteps s hdecided

/-- When a consultation is decided, every declared goal has a value or has been
adrift. -/
theorem settles_or_adrift (hback : kb.strategy = .backward)
    (h : kb.Course limits kb.start s)
    (hdecided : (kb.step limits s).result = .ok .decided) {goal : Goal}
    (hgoal : goal ∈ kb.goals) :
    (kb.step limits s).state.facts.Settles goal.name ∨
      ∃ m, kb.Course limits kb.start m ∧ kb.Course limits m (kb.step limits s).state ∧
        m.Adrift goal.name := by
  have hcourse : kb.Course limits kb.start (kb.step limits s).state :=
    h.trans (course_step kb limits s).1
  have hagenda := agenda_of_decided hback hdecided
  cases hcourse.standing hgoal with
  | pursued hmem => simp [hagenda] at hmem
  | settled hsettles => exact .inl hsettles
  | leaning _ _ _ _ hmem => simp [hagenda] at hmem
  | adrift hm hs hadrift => exact .inr ⟨_, hm, hs, hadrift⟩

end KnowledgeBase

/-- In every consultation by backward chaining that is decided, the declared
goals have values, except that those which were adrift on the way may have none. -/
theorem goals_settled_iff {e : Engine} (hback : e.knowledge.strategy = .backward)
    {p : Engine.Progress} (hreach : e.Reachable p)
    (hdecided : (e.step p.state).result = .ok .decided) :
    (∀ goal ∈ e.knowledge.goals, (e.step p.state).state.facts.Settles goal.name) ↔
      ∀ goal ∈ e.knowledge.goals, ∀ m, e.Course e.start m →
        e.Course m (e.step p.state).state →
        m.Adrift goal.name → (e.step p.state).state.facts.Settles goal.name := by
  constructor
  · intro h goal hgoal _ _ _ _
    exact h goal hgoal
  · intro h goal hgoal
    rcases KnowledgeBase.settles_or_adrift hback hreach.course hdecided hgoal with
      hsettles | ⟨m, hm, hs, hadrift⟩
    · exact hsettles
    · exact h goal hgoal m hm hs hadrift

/-- Where names are plain, a goal called by the name of a fact is never adrift. -/
theorem Consultation.PlainlyNamed.not_adrift {s : Consultation} (h : s.PlainlyNamed)
    {name : String} (hname : isVariable name = false) : ¬s.Adrift name := by
  intro hadrift
  cases hadrift with
  | target _ hunknown _ => simp [s.facts.resolve_of_not_isVariable hname] at hunknown
  | value _ hget hunknown hvar =>
      have hplain := h.facts.of_resolve_unknown (h.facts _ _ hget) hunknown
      simp [hplain] at hvar

/-- In every consultation by backward chaining of a plainly named knowledge base
that is decided, the declared goals have values. -/
theorem goals_settled_of_plainlyNamed {e : Engine}
    (hback : e.knowledge.strategy = .backward) (hplain : e.knowledge.PlainlyNamed)
    {p : Engine.Progress} (hreach : e.Reachable p)
    (hdecided : (e.step p.state).result = .ok .decided) :
    ∀ goal ∈ e.knowledge.goals, (e.step p.state).state.facts.Settles goal.name := by
  intro goal hgoal
  rcases KnowledgeBase.settles_or_adrift hback hreach.course hdecided hgoal with
    hsettles | ⟨m, hm, -, hadrift⟩
  · exact hsettles
  · exact absurd hadrift
      ((hm.plainlyNamed hback hplain).not_adrift (hplain.goals goal hgoal))

/-! ## A goal that names another -/

/-- A goal that has the value of a fact as its name, and behind it this fact. -/
def renamedEngine : Engine where
  knowledge :=
    { rules := [{ condition := .all [], consequences := KeyMap.empty.insert "x" "foo" }]
      goals := [{ name := "$x" }, { name := "x" }] }
  limits := { maxSteps := 10 }
  checked := by rfl

/-- In the end the goal in front names a fact without a value. -/
private theorem not_settles_renamedEngine :
    ¬(renamedEngine.step renamedEngine.start).state.facts.Settles "$x" := by
  have hnone : (renamedEngine.step renamedEngine.start).state.facts.lookup "$x" =
      .ok none := rfl
  rintro ⟨value, hvalue⟩
  rw [hnone] at hvalue
  cases hvalue

/-- The goal that has no value in the end has been adrift. -/
theorem renamedEngine_adrift :
    ∃ goal ∈ renamedEngine.knowledge.goals, ∃ m,
      renamedEngine.Course renamedEngine.start m ∧
      renamedEngine.Course m (renamedEngine.step renamedEngine.start).state ∧
      m.Adrift goal.name ∧
      ¬(renamedEngine.step renamedEngine.start).state.facts.Settles goal.name := by
  by_contra hnone
  have hsettled := (goals_settled_iff (e := renamedEngine) rfl
    (p := ⟨renamedEngine.start, []⟩) .refl rfl).2
    fun goal hgoal m hm hs hadrift => by_contra fun hnot =>
      hnone ⟨goal, hgoal, m, hm, hs, hadrift, hnot⟩
  have hgoal : { name := "$x" } ∈ renamedEngine.knowledge.goals := by
    simp [renamedEngine]
  exact not_settles_renamedEngine (hsettled _ hgoal)

/-- The order of the goals matters: a goal may be dropped without a value. -/
theorem not_always_goals_settled :
    ¬∀ e : Engine, e.knowledge.strategy = .backward → ∀ p : Engine.Progress,
      e.Reachable p → (e.step p.state).result = .ok .decided →
      ∀ goal ∈ e.knowledge.goals, (e.step p.state).state.facts.Settles goal.name := by
  intro h
  have hgoal : { name := "$x" } ∈ renamedEngine.knowledge.goals := by
    simp [renamedEngine]
  exact not_settles_renamedEngine
    (h renamedEngine rfl ⟨renamedEngine.start, []⟩ .refl rfl _ hgoal)

end Consult
