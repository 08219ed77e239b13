import Consult.Proofs.Path

/-!
# Backward chaining computes the model

A knowledge base with one goal and no questions, whose texts stand for themselves
and whose facts do not depend on themselves, is decided in the end, and all that
has been recorded on the way is so in its model.

The agenda is a path in what facts depend on, from the goal upwards.  So a fact
that is awaited is never on it, a fact is given up only when all rules for it are
ruled out, and every name comes onto the agenda at most once.

## Main results

* `Deriving.turn` — a turn stays within the model and comes closer to an end.
* `backward_computes_model` — backward chaining ends in the model.
-/

namespace Consult

/-- The names that may come onto the agenda. -/
def KnowledgeBase.pursuable (kb : KnowledgeBase) (goal : String) : Finset String :=
  insert goal kb.leafNames

/-- What is asked of a knowledge base, so that a goal is derived as the model says. -/
structure KnowledgeBase.Derives (kb : KnowledgeBase) (values : String → String) :
    Prop where
  plain : kb.Plain
  acyclic : kb.Acyclic
  consistent : kb.Consistent
  values : kb.Describes values

/-- What holds from beginning to end while a goal is derived. -/
structure Deriving (kb : KnowledgeBase) (values : String → String) (goal : String)
    (s : Consultation) : Prop where
  onPath : OnPath kb s
  agrees : s.facts.Agrees values
  started : s.facts.Keeps kb.start.facts
  silent : s.questions = []
  names : ∀ name ∈ s.agenda, name ∈ kb.pursuable goal
  reached : goal ∈ s.agenda ∨ ∃ record, s.facts.get? goal = some record

/-- The names that are still to come onto the agenda, at most. -/
def Consultation.untouched (kb : KnowledgeBase) (goal : String) (s : Consultation) :
    Finset String :=
  (kb.pursuable goal).filter fun name => s.facts.get? name = none ∧ name ∉ s.agenda

/-- How many turns are left, at most: two for every name that is still to come
onto the agenda, one for every name that is there. -/
def Consultation.effort (kb : KnowledgeBase) (goal : String) (s : Consultation) : Nat :=
  2 * (s.untouched kb goal).card + s.agenda.length

section Turns

variable {kb : KnowledgeBase} {values : String → String} {goal : String}
    {s s' : Consultation}

theorem Consultation.mem_untouched {name : String} : name ∈ s.untouched kb goal ↔
    name ∈ kb.pursuable goal ∧ s.facts.get? name = none ∧ name ∉ s.agenda :=
  Finset.mem_filter

/-- A name that comes onto the agenda takes less than was reckoned for it. -/
theorem Consultation.effort_push {fact : String} (hmem : fact ∈ s.untouched kb goal) :
    (s.push fact).effort kb goal < s.effort kb goal := by
  have hss : (s.push fact).untouched kb goal ⊂ s.untouched kb goal := by
    refine (Finset.ssubset_iff_of_subset fun name hname => ?_).2
      ⟨fact, hmem, fun hself => ?_⟩
    · obtain ⟨hpursuable, hnone, hnew⟩ := mem_untouched.1 hname
      exact mem_untouched.2 ⟨hpursuable, hnone,
        fun h => hnew (List.mem_cons_of_mem _ h)⟩
    · exact (mem_untouched.1 hself).2.2 List.mem_cons_self
  have hcard := Finset.card_lt_card hss
  have hlength : (s.push fact).agenda.length = s.agenda.length + 1 := rfl
  unfold effort
  omega

/-- A recorded name that leaves the agenda does not come back. -/
theorem Consultation.effort_pop {front : String} {rest : List String} {record : Record}
    (hfront : s.agenda = front :: rest) (hagenda : s'.agenda = rest)
    (hkeeps : s'.facts.Keeps s.facts) (hget : s'.facts.get? front = some record) :
    s'.effort kb goal < s.effort kb goal := by
  have hsubset : s'.untouched kb goal ⊆ s.untouched kb goal := by
    intro name hname
    obtain ⟨hpursuable, hnone, hoff⟩ := mem_untouched.1 hname
    refine mem_untouched.2 ⟨hpursuable, hkeeps.get?_none hnone, ?_⟩
    rw [hfront, List.mem_cons, not_or, ← hagenda]
    refine ⟨?_, hoff⟩
    rintro rfl
    simp [hget] at hnone
  have hcard := Finset.card_le_card hsubset
  have hlength : s.agenda.length = s'.agenda.length + 1 := by
    rw [hfront, hagenda, List.length_cons]
  unfold effort
  omega

/-! ## What a turn records -/

namespace KnowledgeBase.Derives

/-- A rule that fires on partial knowledge records what the model says. -/
theorem agrees_of_fired (hkb : kb.Derives values) (h : Deriving kb values goal s)
    (hfired : Fired kb s s') : s'.facts.Agrees values := by
  cases hfired with
  | none => exact h.agrees
  | @rule rule finding hrule heval hyes =>
      have hsettled : finding.verdict ≠ .maybe := by
        rw [hyes]
        decide
      have hholds : rule.condition.HoldsIn values :=
        (Condition.holdsIn_iff h.agrees (hkb.values.literal hkb.plain)
          (hkb.plain.conditions rule hrule) heval hsettled).2 hyes
      intro fact record hget
      rcases Facts.of_get?_record hget with hold | ⟨hnone, hvalue, -⟩
      · exact h.agrees fact record hold
      · have hnew := h.started.get?_none hnone
        rw [hkb.values fact]
        exact (closedWorldValue_of_holdsIn hkb.consistent hnew hrule hvalue hholds).symm

/-- A fact that is given up, since no rule for it holds, is undefined in the model. -/
theorem eq_undefinedValue (hkb : kb.Derives values) (h : Deriving kb values goal s)
    {fact : String} (hfacts : Unsettled kb s fact []) :
    values fact = undefinedValue := by
  rw [hkb.values fact]
  refine closedWorldValue_of_forall_not (h.started.get?_none hfacts.hnone) ?_
  intro rule hrule
  obtain ⟨finding, heval, hno | ⟨-, hmem⟩⟩ := hfacts.ruled rule hrule
  · have hsettled : finding.verdict ≠ .maybe := by
      rw [hno]
      decide
    have hplain := hkb.plain.conditions rule (List.mem_filter.1 hrule).1
    rw [Condition.holdsIn_iff h.agrees (hkb.values.literal hkb.plain) hplain heval
      hsettled, hno]
    decide
  · cases hmem

end KnowledgeBase.Derives

/-- To assume a fact undefined is right if it is so in the model. -/
theorem Consultation.agrees_assumeUndefined {fact : String} (h : s.facts.Agrees values)
    (hundefined : values fact = undefinedValue) :
    (s.assumeUndefined fact).1.facts.Agrees values := by
  intro name record hget
  rcases Facts.of_get?_record hget with hold | ⟨-, hvalue, -⟩
  · exact h name record hold
  · rw [KeyMap.get?_insert] at hvalue
    split at hvalue
    · next hname =>
      rw [hname, hundefined]
      exact (Option.some.inj hvalue).symm
    · simp at hvalue

/-! ## The turns -/

namespace Deriving

/-- A name before the path fits onto the agenda. -/
theorem length_lt_of_notMem {fact : String} (h : Deriving kb values goal s)
    (hacyclic : kb.Acyclic) (hmem : fact ∈ kb.pursuable goal) (hnew : fact ∉ s.agenda) :
    s.agenda.length < (kb.pursuable goal).card := by
  have hnodup : (fact :: s.agenda).Nodup :=
    List.nodup_cons.2 ⟨hnew, h.onPath.nodup hacyclic⟩
  have hsubset : (fact :: s.agenda).toFinset ⊆ kb.pursuable goal := by
    intro name hname
    rcases List.mem_cons.1 (List.mem_toFinset.1 hname) with rfl | hold
    · exact hmem
    · exact h.names name hold
  have hcard := Finset.card_le_card hsubset
  rw [List.toFinset_card_of_nodup hnodup, List.length_cons] at hcard
  omega

/-- A name that the goal in front depends on goes before it. -/
theorem push {front fact : String} {rest : List String} (h : Deriving kb values goal s)
    (hplain : kb.Plain) (hfront : s.agenda = front :: rest)
    (hfeeds : kb.Feeds fact front) :
    Deriving kb values goal (s.push fact) where
  onPath := h.onPath.push hplain hfront hfeeds
  agrees := h.agrees
  started := h.started
  silent := h.silent
  names := by
    intro name hname
    rcases List.mem_cons.1 hname with rfl | hold
    · exact Finset.mem_insert_of_mem hfeeds.mem_leafNames
    · exact h.names name hold
  reached := h.reached.imp (List.mem_cons_of_mem _) id

/-- The goal in front goes when it is recorded. -/
theorem pop {front : String} {rest : List String} {record : Record}
    (h : Deriving kb values goal s) (hkb : kb.Derives values)
    (hfront : s.agenda = front :: rest) (hagenda : s'.agenda = rest)
    (hquestions : s'.questions = s.questions) (hkeeps : s'.facts.Keeps s.facts)
    (hagrees : s'.facts.Agrees values) (hget : s'.facts.get? front = some record) :
    Deriving kb values goal s' where
  onPath := by
    have hsuffix : s'.agenda <:+ s.agenda := by
      rw [hfront, hagenda]
      exact List.suffix_cons _ _
    exact h.onPath.of_suffix (hagrees.literal (hkb.values.literal hkb.plain)) hsuffix
  agrees := hagrees
  started := hkeeps.trans h.started
  silent := hquestions.trans h.silent
  names := by
    intro name hname
    rw [hagenda] at hname
    exact h.names name (hfront ▸ List.mem_cons_of_mem _ hname)
  reached := by
    rcases h.reached with hmem | ⟨old, hold⟩
    · rw [hfront, ← hagenda] at hmem
      rcases List.mem_cons.1 hmem with rfl | hrest
      · exact .inr ⟨record, hget⟩
      · exact .inl hrest
    · exact .inr ⟨old, hkeeps goal old hold⟩

/-- The goal in front is given up only when it is undefined in the model. -/
theorem assume {front : String} {rest : List String} (h : Deriving kb values goal s)
    (hkb : kb.Derives values) (hfront : s.agenda = front :: rest)
    (hfacts : Unsettled kb s front []) :
    Deriving kb values goal (s.pop.assumeUndefined front).1 ∧
      (s.pop.assumeUndefined front).1.effort kb goal < s.effort kb goal := by
  have hundefined := hkb.eq_undefinedValue h hfacts
  have hagenda : (s.pop.assumeUndefined front).1.agenda = rest := by
    show s.agenda.tail = rest
    rw [hfront, List.tail_cons]
  have hkeeps : (s.pop.assumeUndefined front).1.facts.Keeps s.facts :=
    Consultation.keeps_assumeUndefined s.pop front
  have hagrees : (s.pop.assumeUndefined front).1.facts.Agrees values :=
    Consultation.agrees_assumeUndefined h.agrees hundefined
  have hget : (s.pop.assumeUndefined front).1.facts.get? front =
      some (Facts.undefinedRecord front) := by
    rw [Consultation.get?_assumeUndefined]
    simp [Consultation.pop, hfacts.hnone]
  exact ⟨h.pop hkb hfront hagenda rfl hkeeps hagrees hget,
    Consultation.effort_pop hfront hagenda hkeeps hget⟩

/-- A turn stays within the model and comes closer to an end. -/
theorem turn {limits : Limits} {front : String} {rest : List String}
    (h : Deriving kb values goal s) (hkb : kb.Derives values)
    (hroom : (kb.pursuable goal).card ≤ limits.maxAgenda)
    (hfront : s.agenda = front :: rest) :
    (turn kb limits front s).Post fun x s' =>
      x = .ok none ∧ Deriving kb values goal s' ∧
        s'.effort kb goal < s.effort kb goal := by
  have hself : s.facts.resolve front = .ok (.literal front) :=
    h.onPath.resolve_front hfront
  refine (turn_cases kb limits front s).mono ?_
  intro x t hturn
  -- Texts stand for themselves, so nothing is circular and nothing
  -- waits for a variable.
  cases hturn with
  | circular hcircular =>
      rw [hself] at hcircular
      cases hcircular
  | @circularRule fault rule hrule hcircular =>
      obtain ⟨finding, heval⟩ :=
        Condition.exists_evaluate h.onPath.literal rule.condition
        (hkb.plain.conditions rule hrule)
      rw [heval] at hcircular
      cases hcircular
  | circularValue hfired _ hget hcircular =>
      rw [h.onPath.resolve_value hkb.plain hfired hget] at hcircular
      cases hcircular
  | overflow hwants hnew hfull =>
      obtain ⟨rfl, hfeeds, -⟩ := h.onPath.of_wants hkb.plain hfront hwants
      have hmem := Finset.mem_insert_of_mem (b := goal) hfeeds.mem_leafNames
      have hlength := h.length_lt_of_notMem hkb.acyclic hmem hnew
      omega
  | asked _ _ hquestion =>
      rw [h.silent] at hquestion
      cases hquestion
  | @pushed t fact hwants hnew _ =>
      obtain ⟨rfl, hfeeds, hnone⟩ := h.onPath.of_wants hkb.plain hfront hwants
      have hmem := Finset.mem_insert_of_mem (b := goal) hfeeds.mem_leafNames
      have huntouched := Consultation.mem_untouched.2 ⟨hmem, hnone, hnew⟩
      exact ⟨rfl, h.push hkb.plain hfront hfeeds, Consultation.effort_push huntouched⟩
  | dropped hunknown _ =>
      rw [hself] at hunknown
      cases hunknown
  | stalled hfired _ hget hunknown _ =>
      rw [h.onPath.resolve_value hkb.plain hfired hget] at hunknown
      cases hunknown
  | assumed hname hfacts hpursued _ =>
      rw [hself] at hname
      cases hname
      obtain rfl :=
        h.onPath.findings_eq_nil hkb.plain hkb.acyclic hfront hfacts hpursued
      obtain ⟨hderiving, heffort⟩ := h.assume hkb hfront hfacts
      exact ⟨rfl, hderiving, heffort⟩
  | @concluded t name value record hfired hname hget _ =>
      rw [hself] at hname
      cases hname
      have hagenda : t.pop.agenda = rest := by
        show t.agenda.tail = rest
        rw [hfired.agenda, hfront, List.tail_cons]
      have hkeeps : t.pop.facts.Keeps s.facts := hfired.keeps
      have hagrees : t.facts.Agrees values := hkb.agrees_of_fired h hfired
      exact ⟨rfl, h.pop hkb hfront hagenda hfired.questions hkeeps hagrees hget,
        Consultation.effort_pop hfront hagenda hkeeps hget⟩

end Deriving

end Turns

/-! ## The run -/

section Run

variable {kb : KnowledgeBase} {values : String → String} {goal : String}
    {s : Consultation}

/-- Working the agenda ends within the model. -/
theorem Deriving.backwardFor {limits : Limits} (hkb : kb.Derives values)
    (hroom : (kb.pursuable goal).card ≤ limits.maxAgenda) (rounds : Nat)
    (s : Consultation) (h : Deriving kb values goal s)
    (heffort : s.effort kb goal ≤ rounds) :
    (backwardFor kb limits rounds s).Post fun x s' =>
      x = .ok .decided ∧ Deriving kb values goal s' ∧ s'.agenda = [] := by
  refine backwardFor_post_of_turn (P := fun rounds s x s' => Deriving kb values goal s →
    s.effort kb goal ≤ rounds → x = .ok .decided ∧ Deriving kb values goal s' ∧
    s'.agenda = [])
    ?_ ?_ ?_ rounds s h heffort
  · exact fun _ s hagenda hs _ => ⟨rfl, hs, hagenda⟩
  · intro s hagenda hs heffort
    have hlength : s.agenda.length = 0 := by
      unfold Consultation.effort at heffort
      omega
    exact absurd (List.length_eq_zero_iff.1 hlength) hagenda
  · intro rounds s front rest hfront
    have hturn : (Consult.turn kb limits front s).Post fun x t =>
        Deriving kb values goal s →
        x = .ok none ∧ Deriving kb values goal t ∧
          t.effort kb goal < s.effort kb goal :=
      fun hs => hs.turn hkb hroom hfront
    refine hturn.mono ?_
    rintro (fault | _ | pending) t ht
    · exact fun hs _ => nomatch (ht hs).1
    · intro y u hrest hs heffort
      obtain ⟨-, hderiving, hless⟩ := ht hs
      exact hrest hderiving (by omega)
    · exact fun hs _ => nomatch (ht hs).1

/-- The start of a consultation with one goal. -/
theorem Deriving.start {g : Goal} (hplain : kb.Plain) (hgoals : kb.goals = [g])
    (hquestions : kb.questions = []) (hvalues : kb.Describes values) :
    Deriving kb values g.name kb.start where
  onPath := .start hplain hgoals
  agrees := by
    intro fact record hget
    rw [hvalues fact, KnowledgeBase.closedWorldValue_of_start hget]
  started := .refl _
  silent := hquestions
  names := by
    rw [hplain.agenda_start hgoals]
    intro name hname
    obtain rfl := List.mem_singleton.1 hname
    exact Finset.mem_insert_self _ _
  reached := by
    rw [hplain.agenda_start hgoals]
    exact .inl (List.mem_singleton_self _)

/-- Two turns for each name suffice. -/
theorem effort_start {g : Goal} (h : Deriving kb values g.name kb.start)
    (hagenda : kb.start.agenda = [g.name]) :
    kb.start.effort kb g.name ≤ 2 * (kb.leafNames.card + 1) := by
  have hss : kb.start.untouched kb g.name ⊂ kb.pursuable g.name := by
    have hmem : g.name ∈ kb.start.agenda := by
      rw [hagenda]
      exact List.mem_singleton_self _
    refine (Finset.ssubset_iff_of_subset (Finset.filter_subset _ _)).2
      ⟨g.name, h.names _ hmem, fun hself => ?_⟩
    exact (Consultation.mem_untouched.1 hself).2.2 hmem
  have hcard := Finset.card_lt_card hss
  have hnames : (kb.pursuable g.name).card ≤ kb.leafNames.card + 1 :=
    Finset.card_insert_le _ _
  have hlength : kb.start.agenda.length = 1 := by
    rw [hagenda, List.length_singleton]
  unfold Consultation.effort
  omega

end Run

/-- Backward chaining ends in the model, of a knowledge base with one goal and no
questions: it is decided, whatever has been recorded is so in the model, and the
goal has its value there. -/
theorem backward_computes_model {kb : KnowledgeBase} {goal : Goal} {limits : Limits}
    (hgoals : kb.goals = [goal]) (hquestions : kb.questions = []) (hplain : kb.Plain)
    (hacyclic : kb.Acyclic) (hconsistent : kb.Consistent)
    (hsteps : 2 * (kb.leafNames.card + 1) ≤ limits.maxSteps)
    (hroom : kb.leafNames.card + 1 ≤ limits.maxAgenda) :
    (backward kb limits kb.start).result = .ok .decided ∧
      (∀ fact record,
        (backward kb limits kb.start).state.facts.get? fact = some record →
          record.value = kb.model hacyclic fact) ∧
      (backward kb limits kb.start).state.facts.value goal.name =
        .ok (some (kb.model hacyclic goal.name)) := by
  have hvalues := KnowledgeBase.describes_model hacyclic
  have hagenda := hplain.agenda_start hgoals
  have hstart := Deriving.start hplain hgoals hquestions hvalues
  have hcard : (kb.pursuable goal.name).card ≤ limits.maxAgenda :=
    (Finset.card_insert_le _ _).trans hroom
  have heffort := (effort_start hstart hagenda).trans hsteps
  have hkb : kb.Derives (kb.model hacyclic) := ⟨hplain, hacyclic, hconsistent, hvalues⟩
  obtain ⟨hdecided, hend, hempty⟩ :=
    Deriving.backwardFor hkb hcard limits.maxSteps kb.start hstart heffort
  refine ⟨hdecided, hend.agrees, ?_⟩
  obtain ⟨record, hget⟩ : ∃ record,
      (backward kb limits kb.start).state.facts.get? goal.name = some record := by
    rcases hend.reached with hmem | hrecorded
    · simp [hempty] at hmem
    · exact hrecorded
  have hrecord := hend.agrees goal.name record hget
  have hplainValue : isVariable record.value = false := by
    rw [hrecord]
    exact hvalues.literal hplain _
  have hresolve :=
    (backward kb limits kb.start).state.facts.resolve_of_not_isVariable hplainValue
  have hgoal : isVariable goal.name = false := by
    apply hplain.goals
    rw [hgoals]
    exact List.mem_singleton_self goal
  rw [← hrecord]
  simp [Facts.value, hgoal, hget, hresolve, bind, Except.bind, pure, Except.pure]

/-- A picnic is held unless it rains, and it rains from dark clouds. -/
def picnic : KnowledgeBase where
  rules := [
    { condition := .negation (.equals "rain" "yes")
      consequences := KeyMap.empty.insert "picnic" "yes" },
    { condition := .equals "clouds" "dark"
      consequences := KeyMap.empty.insert "rain" "yes" }]
  goals := [{ name := "picnic" }]

private theorem acyclic_picnic : picnic.Acyclic := by
  refine KnowledgeBase.acyclic_of_rank
    (fun fact => if fact = "picnic" then 2 else if fact = "rain" then 1 else 0) ?_
  rintro name fact ⟨rule, hrule, hinfers, leaf, hleaf, rfl⟩
  rcases List.mem_cons.1 hrule with rfl | hrule
  · have hfact : fact = "picnic" := by
      simpa [Rule.infers, KeyMap.contains, KeyMap.get?_insert] using hinfers
    obtain rfl := List.mem_singleton.1 hleaf
    subst hfact
    decide
  · obtain rfl := List.mem_singleton.1 hrule
    have hfact : fact = "rain" := by
      simpa [Rule.infers, KeyMap.contains, KeyMap.get?_insert] using hinfers
    obtain rfl := List.mem_singleton.1 hleaf
    subst hfact
    decide

/-- Nothing is known of the clouds, so the picnic is held. -/
theorem picnic_held :
    (backward picnic { maxSteps := 6, maxAgenda := 3 } picnic.start).state.facts.value
      "picnic" =
        .ok (some "yes") ∧
      picnic.model acyclic_picnic "picnic" = "yes" := by
  have hplain : picnic.Plain :=
    ⟨by decide, by decide, by decide, by decide, by decide, by decide⟩
  have hvalue :
      (backward picnic { maxSteps := 6, maxAgenda := 3 } picnic.start).state.facts.value
      "picnic" = .ok (some "yes") := rfl
  obtain ⟨-, -, hmodel⟩ := @backward_computes_model picnic { name := "picnic" }
    { maxSteps := 6, maxAgenda := 3 } rfl rfl hplain acyclic_picnic
      (by decide) (by decide)
    (by decide)
  rw [hvalue] at hmodel
  exact ⟨hvalue, (Option.some.inj (Except.ok.inj hmodel)).symm⟩

end Consult
