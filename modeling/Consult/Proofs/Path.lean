import Consult.Proofs.Course
import Consult.Proofs.Model

/-!
# The agenda as a path

Where texts stand for themselves and there is one goal, every name on the agenda
feeds the names behind it, as it was pushed for the sake of the one next to it.
If no fact depends on itself, what a rule awaits is therefore never on the agenda
already, and a goal is not given up while a rule for it is undecided.

## Main results

* `OnPath.turn` — a turn keeps the agenda a path.
* `OnPath.findings_eq_nil` — a goal is given up only if all its rules are ruled out.
* `Course.onPath` — the agenda is a path in every consultation.
-/

namespace Consult

/-- Texts stand for themselves, and every name on the agenda feeds those behind it. -/
structure OnPath (kb : KnowledgeBase) (s : Consultation) : Prop where
  literal : s.facts.Literal
  plain : ∀ name ∈ s.agenda, isVariable name = false
  path : s.agenda.Pairwise (Relation.TransGen kb.Feeds)

namespace OnPath

variable {kb : KnowledgeBase} {s s' : Consultation} {front fact : String}
    {rest : List String}

theorem nodup (h : OnPath kb s) (hacyclic : kb.Acyclic) : s.agenda.Nodup := by
  refine List.Pairwise.imp ?_ h.path
  rintro name _ hcycle rfl
  exact hacyclic name hcycle

/-- Names on the agenda stand for themselves. -/
theorem resolve_front (h : OnPath kb s) (hfront : s.agenda = front :: rest) :
    s.facts.resolve front = .ok (.literal front) :=
  s.facts.resolve_of_not_isVariable (h.plain front (hfront ▸ List.mem_cons_self))

/-- A name that feeds the goal in front feeds all of the path. -/
theorem transGen_of_feeds (h : OnPath kb s) (hfront : s.agenda = front :: rest)
    (hfeeds : kb.Feeds fact front) :
    ∀ name ∈ s.agenda, Relation.TransGen kb.Feeds fact name := by
  have hpath := h.path
  rw [hfront] at hpath ⊢
  intro name hname
  rcases List.mem_cons.1 hname with rfl | hrest
  · exact .single hfeeds
  · exact .head hfeeds ((List.pairwise_cons.1 hpath).1 name hrest)

/-- What an undecided rule for a fact awaits feeds the fact. -/
theorem feeds_of_awaits (h : OnPath kb s) (hplain : kb.Plain) {rule : Rule}
    {finding : Finding} {other : String} (hrule : rule ∈ kb.rulesInferring fact)
    (heval : rule.condition.evaluate s.facts = .ok finding)
    (hawaits : finding.Awaits other) :
    kb.Feeds other fact := by
  have hcondition := hplain.conditions rule (List.mem_filter.1 hrule).1
  have hname := Condition.mem_facts_of_awaits h.literal hcondition heval hawaits
  obtain ⟨leaf, hleaf, rfl⟩ := Condition.mem_facts.1 hname
  exact KnowledgeBase.feeds_of_mem hrule hleaf

/-- No undecided rule for the goal in front awaits only what is on the agenda, or
a fact would depend on itself. -/
theorem exists_awaits_notMem (h : OnPath kb s) (hplain : kb.Plain)
    (hacyclic : kb.Acyclic) (hfront : s.agenda = front :: rest) {rule : Rule}
    {finding : Finding} (hrule : rule ∈ kb.rulesInferring front)
    (heval : rule.condition.evaluate s.facts = .ok finding)
    (hmaybe : finding.verdict = .maybe) :
    ∃ other, finding.Awaits other ∧ other ∉ s.agenda := by
  obtain ⟨other, hawaits⟩ := rule.condition.exists_awaits heval hmaybe
  refine ⟨other, hawaits, fun hmem => ?_⟩
  have hfeeds := h.feeds_of_awaits hplain hrule heval hawaits
  exact hacyclic other (h.transGen_of_feeds hfront hfeeds other hmem)

/-- If all that undecided rules for the goal in front await is on the agenda,
there are none. -/
theorem findings_eq_nil (h : OnPath kb s) (hplain : kb.Plain) (hacyclic : kb.Acyclic)
    (hfront : s.agenda = front :: rest) {findings : List Finding}
    (hfacts : Unsettled kb s front findings)
    (hpursued : ∀ finding ∈ findings, ∀ fact, finding.Awaits fact → fact ∈ s.agenda) :
    findings = [] := by
  refine List.eq_nil_iff_forall_not_mem.2 ?_
  intro finding hmem
  obtain ⟨hmaybe, rule, hrule, heval⟩ := hfacts.undecided finding hmem
  obtain ⟨other, hawaits, hnew⟩ :=
    h.exists_awaits_notMem hplain hacyclic hfront hrule heval hmaybe
  exact hnew (hpursued finding hmem other hawaits)

theorem literal_of_fired (h : OnPath kb s) (hplain : kb.Plain)
    (hfired : Fired kb s s') :
    s'.facts.Literal := by
  cases hfired with
  | none => exact h.literal
  | rule hrule _ _ => exact h.literal.record _ (hplain.consequences _ hrule)

/-- Recorded values stand for themselves. -/
theorem resolve_value (h : OnPath kb s) (hplain : kb.Plain) (hfired : Fired kb s s')
    {name : String} {record : Record} (hget : s'.facts.get? name = some record) :
    s'.facts.resolve record.value = .ok (.literal record.value) :=
  s'.facts.resolve_of_not_isVariable (h.literal_of_fired hplain hfired name record hget)

/-- The goal in front waits for a fact that feeds it and is not recorded. -/
theorem of_wants (h : OnPath kb s) (hplain : kb.Plain)
    (hfront : s.agenda = front :: rest) (hwants : Wants kb front s s' fact) :
    s' = s ∧ kb.Feeds fact front ∧ s.facts.get? fact = none := by
  cases hwants with
  | target hunknown =>
      rw [h.resolve_front hfront] at hunknown
      cases hunknown
  | value hfired _ hget hunknown =>
      rw [h.resolve_value hplain hfired hget] at hunknown
      cases hunknown
  | rule hname hfacts hmem hawaits =>
      rw [h.resolve_front hfront] at hname
      cases hname
      obtain ⟨-, rule, hrule, heval⟩ := hfacts.undecided _ hmem
      have hnone := rule.condition.get?_of_awaits heval hawaits
      exact ⟨rfl, h.feeds_of_awaits hplain hrule heval hawaits, hnone⟩

/-! ## Along the way -/

/-- A name that feeds the goal in front goes before it. -/
theorem push (h : OnPath kb s) (hplain : kb.Plain) (hfront : s.agenda = front :: rest)
    (hfeeds : kb.Feeds fact front) : OnPath kb (s.push fact) where
  literal := h.literal
  plain := by
    intro name hname
    rcases List.mem_cons.1 hname with rfl | hold
    · obtain ⟨rule, hrule, -, leaf, hleaf, rfl⟩ := hfeeds
      exact (hplain.conditions rule hrule leaf hleaf).1
    · exact h.plain name hold
  path := List.pairwise_cons.2 ⟨h.transGen_of_feeds hfront hfeeds, h.path⟩

/-- A path may lose names in front. -/
theorem of_suffix (h : OnPath kb s) (hliteral : s'.facts.Literal)
    (hagenda : s'.agenda <:+ s.agenda) : OnPath kb s' where
  literal := hliteral
  plain := fun name hname => h.plain name (hagenda.subset hname)
  path := h.path.sublist hagenda.sublist

/-- A turn keeps the agenda a path. -/
theorem turn (h : OnPath kb s) (hplain : kb.Plain) (limits : Limits)
    (hfront : s.agenda = front :: rest) : OnPath kb (turn kb limits front s).state := by
  show (Consult.turn kb limits front s).Post fun _ s' => OnPath kb s'
  refine (turn_cases kb limits front s).mono ?_
  intro x t hturn
  have hsame {t : Consultation} (hfired : Fired kb s t) : OnPath kb t :=
    h.of_suffix (h.literal_of_fired hplain hfired) (hfired.agenda ▸ List.suffix_refl _)
  have hpop {t : Consultation} (hfired : Fired kb s t) : OnPath kb t.pop :=
    (hsame hfired).of_suffix (hsame hfired).literal (List.tail_suffix _)
  cases hturn with
  | circular _ => exact h
  | circularRule _ _ => exact h
  | circularValue hfired _ _ _ => exact hsame hfired
  | overflow hwants _ _ => exact hsame hwants.fired
  | asked _ _ _ => exact ⟨h.literal, h.plain, h.path⟩
  | pushed hwants _ _ =>
      obtain ⟨rfl, hfeeds, -⟩ := h.of_wants hplain hfront hwants
      exact h.push hplain hfront hfeeds
  | dropped _ _ => exact hpop .none
  | stalled hfired _ _ _ _ => exact hpop hfired
  | assumed _ _ _ _ =>
      refine h.of_suffix (h.literal.record _ ?_) (List.tail_suffix _)
      intro e he
      obtain rfl := List.mem_singleton.1 he
      exact Facts.isVariable_undefinedValue
  | concluded hfired _ _ _ => exact hpop hfired

end OnPath

/-- The agenda at the start, if there is one goal. -/
theorem KnowledgeBase.Plain.agenda_start {kb : KnowledgeBase} (h : kb.Plain)
    {goal : Goal} (hgoals : kb.goals = [goal]) : kb.start.agenda = [goal.name] := by
  have hmem : goal ∈ kb.goals := by
    rw [hgoals]
    exact List.mem_singleton_self goal
  have htargets : goal.targets = [] := by
    unfold Goal.targets
    refine List.filterMap_eq_nil_iff.2 fun answer hanswer => ?_
    cases hvalue : answer.value with
    | none => rfl
    | some value =>
        exact target?_eq_none (h.answers goal hmem answer hanswer value hvalue)
  show seed kb.goals = [goal.name]
  rw [hgoals]
  show goal.targets.foldl pushNew [goal.name] = [goal.name]
  rw [htargets]
  rfl

theorem OnPath.start {kb : KnowledgeBase} (hplain : kb.Plain) {goal : Goal}
    (hgoals : kb.goals = [goal]) : OnPath kb kb.start where
  literal := hplain.start
  plain := by
    rw [hplain.agenda_start hgoals]
    intro name hname
    obtain rfl := List.mem_singleton.1 hname
    apply hplain.goals
    rw [hgoals]
    exact List.mem_singleton_self goal
  path := by
    rw [hplain.agenda_start hgoals]
    exact List.pairwise_singleton _ _

namespace KnowledgeBase

open Engine (reply_cases)

variable {kb : KnowledgeBase} {limits : Limits} {s s' : Consultation}

theorem Moves.onPath (hmove : kb.Moves limits s s') (hback : kb.strategy = .backward)
    (hplain : kb.Plain) (h : OnPath kb s) : OnPath kb s' := by
  cases hmove with
  | turn _ hfront => exact h.turn hplain _ hfront
  | sweep hforth _ => simp [hback] at hforth
  | withdraw hforth _ _ => simp [hback] at hforth
  | @reply pending hquestion index _ =>
      rcases reply_cases pending index s with hsame | ⟨choice, hchoice, hchosen⟩
      · rw [hsame]
        exact h
      · rw [hchosen]
        have hliteral := h.literal.record (.answered pending.question choice)
          (hplain.options _ hquestion choice hchoice)
        exact h.of_suffix hliteral (List.suffix_refl _)

/-- The agenda is a path in every consultation by backward chaining, if there is
one goal and texts stand for themselves. -/
theorem Course.onPath (hcourse : kb.Course limits kb.start s)
    (hback : kb.strategy = .backward) (hplain : kb.Plain) {goal : Goal}
    (hgoals : kb.goals = [goal]) : OnPath kb s := by
  induction hcourse with
  | refl => exact .start hplain hgoals
  | tail _ hmove ih => exact hmove.onPath hback hplain ih

end KnowledgeBase

end Consult
