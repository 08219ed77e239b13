import Consult.Chaining.Backward
import Consult.Proofs.Recording
import Consult.Proofs.Waiting

/-!
# What one turn of backward chaining does

`Turn` lists all that can happen when the goal in front of the agenda is worked
on, with the guards of each case and the state that it leaves.  Every invariant
of backward chaining is a case analysis on it; nothing below opens `solve`,
`pursue` or `conclude` again.

## Main results

* `survey_cons_yes`, `survey_cons_no`, `survey_cons_maybe` — a survey by the rule in
  front.
* `survey_of_none`, `survey_of_some` — what the rules for a goal have to say.
* `solve_cases` — an attempt to settle a goal is one of the cases of `Attempt`.
* `turn_cases` — a turn is one of the cases of `Turn`.
* `turn_of_error` — a turn that fails leaves what the attempt to
  settle its goal has left.
-/

namespace Consult

/-! ## Surveys -/

section

variable {facts : Facts} {rule : Rule} {rules : List Rule} {finding : Finding}
    {fault : Fault}

theorem survey_cons_error (heval : rule.condition.evaluate facts = .error fault) :
    survey facts (rule :: rules) = ⟨[], [], .error fault⟩ := by
  simp only [survey, heval]

theorem survey_cons_yes (heval : rule.condition.evaluate facts = .ok finding)
    (hyes : finding.verdict = .yes) :
    survey facts (rule :: rules) =
      ⟨[.considered rule finding], [], .ok (some (rule, finding))⟩ := by
  simp only [survey, heval, hyes]

theorem survey_cons_no (heval : rule.condition.evaluate facts = .ok finding)
    (hno : finding.verdict = .no) :
    survey facts (rule :: rules) =
      ⟨.considered rule finding :: (survey facts rules).trace,
      (survey facts rules).undecided, (survey facts rules).ending⟩ := by
  simp only [survey, heval, hno]

theorem survey_cons_maybe (heval : rule.condition.evaluate facts = .ok finding)
    (hmaybe : finding.verdict = .maybe) :
    survey facts (rule :: rules) =
      ⟨.considered rule finding :: (survey facts rules).trace,
      finding :: (survey facts rules).undecided, (survey facts rules).ending⟩ := by
  simp only [survey, heval, hmaybe]

end

/-- If no rule fires, each is ruled out or undecided, and the undecided ones are
those that the survey lists. -/
theorem survey_of_none {facts : Facts} {rules : List Rule}
    (h : (survey facts rules).ending = .ok none) :
    (∀ rule ∈ rules, ∃ finding, rule.condition.evaluate facts = .ok finding ∧
      (finding.verdict = .no ∨
        finding.verdict = .maybe ∧ finding ∈ (survey facts rules).undecided)) ∧
    ∀ finding ∈ (survey facts rules).undecided, finding.verdict = .maybe ∧
      ∃ rule ∈ rules, rule.condition.evaluate facts = .ok finding := by
  induction rules with
  | nil => exact ⟨by simp, by simp [survey]⟩
  | cons rule rules ih =>
      cases heval : rule.condition.evaluate facts with
      | error fault =>
          rw [survey_cons_error heval] at h
          cases h
      | ok finding =>
          cases hverdict : finding.verdict with
          | yes =>
              rw [survey_cons_yes heval hverdict] at h
              cases h
          | no =>
              rw [survey_cons_no heval hverdict] at h ⊢
              obtain ⟨hrules, hundecided⟩ := ih h
              refine ⟨List.forall_mem_cons.2 ⟨⟨finding, heval, .inl hverdict⟩, hrules⟩,
                ?_⟩
              intro other hother
              obtain ⟨hmaybe, cause, hcause, hval⟩ := hundecided other hother
              exact ⟨hmaybe, cause, List.mem_cons_of_mem _ hcause, hval⟩
          | maybe =>
              rw [survey_cons_maybe heval hverdict] at h ⊢
              obtain ⟨hrules, hundecided⟩ := ih h
              constructor
              · refine List.forall_mem_cons.2
                  ⟨⟨finding, heval, .inr ⟨hverdict, ?_⟩⟩, ?_⟩
                · exact List.mem_cons_self
                · intro other hother
                  obtain ⟨f, hval, hor⟩ := hrules other hother
                  exact ⟨f, hval, hor.imp_right fun hm =>
                    ⟨hm.1, List.mem_cons_of_mem _ hm.2⟩⟩
              · refine List.forall_mem_cons.2
                  ⟨⟨hverdict, rule, List.mem_cons_self, heval⟩, ?_⟩
                intro other hother
                obtain ⟨hmaybe, cause, hcause, hval⟩ := hundecided other hother
                exact ⟨hmaybe, cause, List.mem_cons_of_mem _ hcause, hval⟩

/-- The rule that a survey ends with holds, and those before it are
ruled out or undecided. -/
theorem survey_of_some {facts : Facts} {rules : List Rule} {rule : Rule}
    {finding : Finding} (h : (survey facts rules).ending = .ok (some (rule, finding))) :
    ∃ earlier later, rules = earlier ++ rule :: later ∧
      rule.condition.evaluate facts = .ok finding ∧ finding.verdict = .yes ∧
      ∀ other ∈ earlier, other.condition.Finds facts .no ∨
        other.condition.Finds facts .maybe := by
  induction rules with
  | nil => simp [survey] at h
  | cons first rules ih =>
      -- A rule in front that does not hold is one more of the earlier ones.
      have hcons (hfirst : first.condition.Finds facts .no ∨
          first.condition.Finds facts .maybe)
          (h : (survey facts rules).ending = .ok (some (rule, finding))) :
          ∃ earlier later, first :: rules = earlier ++ rule :: later ∧
            rule.condition.evaluate facts = .ok finding ∧ finding.verdict = .yes ∧
            ∀ other ∈ earlier,
              other.condition.Finds facts .no ∨ other.condition.Finds facts .maybe := by
        obtain ⟨earlier, later, rfl, hrule, hyes, hearlier⟩ := ih h
        exact ⟨first :: earlier, later, rfl, hrule, hyes,
          List.forall_mem_cons.2 ⟨hfirst, hearlier⟩⟩
      cases heval : first.condition.evaluate facts with
      | error fault =>
          rw [survey_cons_error heval] at h
          cases h
      | ok f =>
          cases hverdict : f.verdict with
          | yes =>
              rw [survey_cons_yes heval hverdict] at h
              cases h
              exact ⟨[], rules, rfl, heval, hverdict, List.forall_mem_nil _⟩
          | no =>
              rw [survey_cons_no heval hverdict] at h
              exact hcons (.inl ⟨f, heval, hverdict⟩) h
          | maybe =>
              rw [survey_cons_maybe heval hverdict] at h
              exact hcons (.inr ⟨f, heval, hverdict⟩) h

/-- The rule that a survey of the rules for a fact ends with gives the fact a value. -/
theorem exists_get?_fire_of_survey {kb : KnowledgeBase} {s : Consultation}
    {fact : String} {rule : Rule} {finding : Finding}
    (h : (survey s.facts (kb.rulesInferring fact)).ending =
      .ok (some (rule, finding))) :
    ∃ record, (s.fire rule finding).1.facts.get? fact = some record := by
  obtain ⟨earlier, later, hrules, -⟩ := survey_of_some h
  have hrule : rule ∈ kb.rulesInferring fact :=
    hrules ▸ List.mem_append_right earlier List.mem_cons_self
  exact s.exists_get?_applyRule finding (List.mem_filter.1 hrule).2

theorem survey_of_error {facts : Facts} {rules : List Rule} {fault : Fault}
    (h : (survey facts rules).ending = .error fault) :
    ∃ rule ∈ rules, rule.condition.evaluate facts = .error fault := by
  induction rules with
  | nil => simp [survey] at h
  | cons first rules ih =>
      cases heval : first.condition.evaluate facts with
      | error fault' =>
          rw [survey_cons_error heval] at h
          cases h
          exact ⟨first, List.mem_cons_self, heval⟩
      | ok f =>
          have hrest : ∃ rule ∈ rules, rule.condition.evaluate facts =
              .error fault := by
            cases hverdict : f.verdict with
            | yes =>
                rw [survey_cons_yes heval hverdict] at h
                cases h
            | no =>
                rw [survey_cons_no heval hverdict] at h
                exact ih h
            | maybe =>
                rw [survey_cons_maybe heval hverdict] at h
                exact ih h
          obtain ⟨rule, hmem, hval⟩ := hrest
          exact ⟨rule, List.mem_cons_of_mem _ hmem, hval⟩

/-! ## Settling a goal -/

/-- `Fired kb s s'`: `s'` is `s`, or what `s` becomes when a rule that holds fires. -/
inductive Fired (kb : KnowledgeBase) (s : Consultation) : Consultation → Prop where
  | none : Fired kb s s
  | rule {rule : Rule} {finding : Finding} (hrule : rule ∈ kb.rules)
      (heval : rule.condition.evaluate s.facts = .ok finding)
        (hyes : finding.verdict = .yes) :
      Fired kb s (s.applyRule rule finding).1

/-- No rule for the fact holds; `findings` are those on the rules that are undecided. -/
structure Unsettled (kb : KnowledgeBase) (s : Consultation) (fact : String)
    (findings : List Finding) : Prop where
  hnone : s.facts.get? fact = none
  ruled : ∀ rule ∈ kb.rulesInferring fact, ∃ finding,
    rule.condition.evaluate s.facts = .ok finding ∧
      (finding.verdict = .no ∨ finding.verdict = .maybe ∧ finding ∈ findings)
  undecided : ∀ finding ∈ findings, finding.verdict = .maybe ∧
    ∃ rule ∈ kb.rulesInferring fact, rule.condition.evaluate s.facts = .ok finding

/-- What an attempt to settle a goal comes to, with the state that it leaves. -/
inductive Attempt (kb : KnowledgeBase) (goal : String) (s : Consultation) :
    Except Fault Solution → Consultation → Prop where
  | circular {fault : Fault} (hgoal : s.facts.resolve goal = .error fault) :
      Attempt kb goal s (.error fault) s
  | circularRule {fault : Fault} {rule : Rule} (hrule : rule ∈ kb.rules)
      (heval : rule.condition.evaluate s.facts = .error fault) :
      Attempt kb goal s (.error fault) s
  | blocked {fact : String} (hgoal : s.facts.resolve goal = .ok (.unknown fact)) :
      Attempt kb goal s (.ok (.unknown (.missing fact))) s
  | known {fact : String} {record : Record} {s' : Consultation} (hfired : Fired kb s s')
      (hgoal : s.facts.resolve goal = .ok (.literal fact))
      (hget : s'.facts.get? fact = some record) :
      Attempt kb goal s (.ok (.known record)) s'
  | undecided {fact : String} {findings : List Finding}
      (hgoal : s.facts.resolve goal = .ok (.literal fact))
      (hfacts : Unsettled kb s fact findings)
      (hquestions : findings = [] → s.questions.find? (·.infers fact) = none) :
      Attempt kb goal s (.ok (.unknown (.because .maybe (findings.map .finding)))) s
  | asked {fact : String} {pending : Pending}
      (hgoal : s.facts.resolve goal = .ok (.literal fact))
        (hfacts : Unsettled kb s fact [])
      (hquestion : s.questions.find? (·.infers fact) = some pending.question) :
      Attempt kb goal s (.ok (.ask pending)) (s.withdraw fact)

private theorem askFor_attempt (kb : KnowledgeBase) {goal fact : String}
    {s : Consultation} (hgoal : s.facts.resolve goal = .ok (.literal fact))
    (hfacts : Unsettled kb s fact []) :
    (askFor fact s).Post (Attempt kb goal s) := by
  unfold askFor
  cases hfind : s.questions.find? (·.infers fact) with
  | none =>
      have hquestions : ([] : List Finding) = [] →
          s.questions.find? (·.infers fact) = none :=
        fun _ => hfind
      exact .undecided hgoal hfacts hquestions
  | some q => exact .asked hgoal hfacts hfind

private theorem settle_attempt (kb : KnowledgeBase) {goal fact : String}
    {s : Consultation} (hgoal : s.facts.resolve goal = .ok (.literal fact))
    (hnone : s.facts.get? fact = none) :
    (settle kb fact s).Post (Attempt kb goal s) := by
  unfold settle
  dsimp only
  cases hending : (survey s.facts (kb.rulesInferring fact)).ending with
  | error fault =>
      obtain ⟨rule, hrule, heval⟩ := survey_of_error hending
      exact .circularRule (List.mem_of_mem_filter hrule) heval
  | ok fires =>
      cases fires with
      | some fires =>
          obtain ⟨rule, finding⟩ := fires
          obtain ⟨earlier, later, hrules, heval, hyes, -⟩ := survey_of_some hending
          have hrule : rule ∈ kb.rulesInferring fact :=
            hrules ▸ List.mem_append_right earlier List.mem_cons_self
          have hfired : Fired kb s (s.applyRule rule finding).1 :=
            .rule (List.mem_of_mem_filter hrule) heval hyes
          obtain ⟨record, hget⟩ := exists_get?_fire_of_survey hending
          simp only [hget]
          exact .known hfired hgoal hget
      | none =>
          obtain ⟨hruled, hundecided⟩ := survey_of_none hending
          have hfacts : Unsettled kb s fact
              (survey s.facts (kb.rulesInferring fact)).undecided :=
            ⟨hnone, hruled, hundecided⟩
          cases hlist : (survey s.facts (kb.rulesInferring fact)).undecided with
          | nil =>
              rw [hlist] at hfacts
              simp only [List.isEmpty_nil, if_true]
              exact askFor_attempt kb hgoal hfacts
          | cons finding findings =>
              rw [hlist] at hfacts
              exact .undecided hgoal hfacts (by simp)

/-- An attempt to settle a goal comes to one of the cases of `Attempt`. -/
theorem solve_cases (kb : KnowledgeBase) (goal : String) (s : Consultation) :
    (solve kb goal s).Post (Attempt kb goal s) := by
  refine Run.Post.andThen
    (Q := fun x s' => s.facts.resolve goal = x ∧ s' = s) ⟨rfl, rfl⟩
    (fun resolution s' h => ?_) (fun fault s' h => ?_)
  · obtain ⟨hgoal, rfl⟩ := h
    cases resolution with
    | unknown fact => exact .blocked hgoal
    | literal fact =>
        cases hget : s'.facts.get? fact with
        | none =>
            simp only [hget]
            exact settle_attempt kb hgoal hget
        | some record =>
            simp only [hget]
            exact .known .none hgoal hget
  · obtain ⟨hgoal, rfl⟩ := h
    exact .circular hgoal

/-! ## A turn -/

/-- `Wants kb goal s s' fact`: work on the goal has led from `s` to `s'`, where
the goal waits for the fact. -/
inductive Wants (kb : KnowledgeBase) (goal : String) (s : Consultation) :
    Consultation → String → Prop where
  | target {fact : String} (hgoal : s.facts.resolve goal = .ok (.unknown fact)) :
      Wants kb goal s s fact
  | value {s' : Consultation} {name fact : String} {record : Record}
      (hfired : Fired kb s s')
      (hgoal : s.facts.resolve goal = .ok (.literal name))
      (hget : s'.facts.get? name = some record)
      (hvalue : s'.facts.resolve record.value = .ok (.unknown fact)) :
        Wants kb goal s s' fact
  | rule {name fact : String} {findings : List Finding} {finding : Finding}
      (hgoal : s.facts.resolve goal = .ok (.literal name))
      (hfacts : Unsettled kb s name findings) (hmem : finding ∈ findings)
      (hawaits : finding.Awaits fact) : Wants kb goal s s fact

/-- What a turn of the goal in front comes to, with the state that it leaves. -/
inductive Turn (kb : KnowledgeBase) (limits : Limits) (goal : String)
    (s : Consultation) :
    Except Fault (Option Pending) → Consultation → Prop where
  | circular {fault : Fault} (hgoal : s.facts.resolve goal = .error fault) :
      Turn kb limits goal s (.error fault) s
  | circularRule {fault : Fault} {rule : Rule} (hrule : rule ∈ kb.rules)
      (heval : rule.condition.evaluate s.facts = .error fault) :
      Turn kb limits goal s (.error fault) s
  | circularValue {fault : Fault} {s' : Consultation} {name : String} {record : Record}
      (hfired : Fired kb s s') (hgoal : s.facts.resolve goal = .ok (.literal name))
      (hget : s'.facts.get? name = some record)
      (hvalue : s'.facts.resolve record.value = .error fault) :
      Turn kb limits goal s (.error fault) s'
  | overflow {s' : Consultation} {fact : String} (hwants : Wants kb goal s s' fact)
      (hnew : fact ∉ s'.agenda) (hfull : limits.maxAgenda ≤ s'.agenda.length) :
      Turn kb limits goal s (.error (.agendaLimit limits.maxAgenda fact)) s'
  | asked {fact : String} {pending : Pending}
      (hgoal : s.facts.resolve goal = .ok (.literal fact))
        (hfacts : Unsettled kb s fact [])
      (hquestion : s.questions.find? (·.infers fact) = some pending.question) :
      Turn kb limits goal s (.ok (some pending)) (s.withdraw fact)
  | pushed {s' : Consultation} {fact : String} (hwants : Wants kb goal s s' fact)
      (hnew : fact ∉ s'.agenda) (hroom : s'.agenda.length < limits.maxAgenda) :
      Turn kb limits goal s (.ok none) (s'.push fact)
  | dropped {fact : String} (hgoal : s.facts.resolve goal = .ok (.unknown fact))
      (hmem : fact ∈ s.agenda) : Turn kb limits goal s (.ok none) s.pop
  | stalled {s' : Consultation} {name fact : String} {record : Record}
      (hfired : Fired kb s s')
      (hgoal : s.facts.resolve goal = .ok (.literal name))
      (hget : s'.facts.get? name = some record)
      (hvalue : s'.facts.resolve record.value = .ok (.unknown fact))
        (hmem : fact ∈ s'.agenda) :
      Turn kb limits goal s (.ok none) s'.pop
  | assumed {name : String} {findings : List Finding}
      (hgoal : s.facts.resolve goal = .ok (.literal name))
      (hfacts : Unsettled kb s name findings)
      (hpursued : ∀ finding ∈ findings, ∀ fact, finding.Awaits fact → fact ∈ s.agenda)
      (hquestions : findings = [] → s.questions.find? (·.infers name) = none) :
      Turn kb limits goal s (.ok none) (s.pop.assumeUndefined name).1
  | concluded {s' : Consultation} {name value : String} {record : Record}
      (hfired : Fired kb s s') (hgoal : s.facts.resolve goal = .ok (.literal name))
      (hget : s'.facts.get? name = some record)
      (hvalue : s'.facts.resolve record.value = .ok (.literal value)) :
      Turn kb limits goal s (.ok none) s'.pop

theorem Fired.keeps {kb : KnowledgeBase} {s s' : Consultation} (h : Fired kb s s') :
    s'.facts.Keeps s.facts := by
  cases h with
  | none => exact .refl _
  | rule _ _ _ => exact Consultation.keeps_apply _ _ _

theorem Fired.agenda {kb : KnowledgeBase} {s s' : Consultation} (h : Fired kb s s') :
    s'.agenda = s.agenda := by
  cases h <;> rfl

theorem Fired.questions {kb : KnowledgeBase} {s s' : Consultation} (h : Fired kb s s') :
    s'.questions = s.questions := by
  cases h <;> rfl

/-- A goal that is left open leads somewhere. -/
theorem Attempt.resolve_of_unknown {kb : KnowledgeBase} {goal : String}
    {s s' : Consultation} {finding : Finding}
    (h : Attempt kb goal s (.ok (.unknown finding)) s') :
    ∃ resolution, s'.facts.resolve goal = .ok resolution := by
  cases h with
  | blocked hgoal => exact ⟨_, hgoal⟩
  | undecided hgoal _ _ => exact ⟨_, hgoal⟩

/-- A goal that has a value leads to a recorded fact. -/
theorem Attempt.resolve_of_known {kb : KnowledgeBase} {goal : String}
    {s s' : Consultation} {record : Record}
    (h : Attempt kb goal s (.ok (.known record)) s') :
    ∃ name, s'.facts.resolve goal = .ok (.literal name) ∧
      s'.facts.get? name = some record := by
  cases h with
  | known hfired hgoal hget =>
      exact ⟨_, hfired.keeps.extends.resolve_literal hgoal, hget⟩

theorem Wants.fired {kb : KnowledgeBase} {goal fact : String} {s s' : Consultation}
    (h : Wants kb goal s s' fact) : Fired kb s s' := by
  cases h with
  | target _ => exact .none
  | value hfired _ _ _ => exact hfired
  | rule _ _ _ _ => exact .none

private theorem giveUp_post {goal name : String} {s : Consultation}
    {P : Except Fault Unit → Consultation → Prop}
    (hgoal : s.facts.resolve goal = .ok (.literal name))
    (h : P (.ok ()) (s.pop.assumeUndefined name).1) : (giveUp goal s).Post P := by
  have hpop : s.pop.facts.resolve goal = .ok (.literal name) := hgoal
  unfold giveUp
  rw [hpop]
  exact h

private theorem giveUp_post_of_unknown {goal fact : String} {s : Consultation}
    {P : Except Fault Unit → Consultation → Prop}
    (hgoal : s.facts.resolve goal = .ok (.unknown fact)) (h : P (.ok ()) s.pop) :
    (giveUp goal s).Post P := by
  have hpop : s.pop.facts.resolve goal = .ok (.unknown fact) := hgoal
  unfold giveUp
  rw [hpop]
  exact h

/-- A goal is pursued by pushing a fact that it awaits, or given up. -/
private theorem pursue_post {limits : Limits} {goal : String} {finding : Finding}
    {s : Consultation} {P : Except Fault Unit → Consultation → Prop}
    (hpush : ∀ fact, finding.Awaits fact → fact ∉ s.agenda →
      s.agenda.length < limits.maxAgenda → P (.ok ()) (s.push fact))
    (hfull : ∀ fact, finding.Awaits fact → fact ∉ s.agenda → limits.maxAgenda ≤
      s.agenda.length → P (.error (.agendaLimit limits.maxAgenda fact)) s)
    (hgiveUp : (∀ fact, finding.Awaits fact → fact ∈ s.agenda) →
      (giveUp goal s).Post P) :
    (pursue limits goal finding s).Post P := by
  unfold pursue
  dsimp only
  cases hfind : finding.unknownFacts.find? (!s.isPursuing ·) with
  | some fact =>
      have hawaits := Finding.mem_unknownFacts.1 (List.mem_of_find?_eq_some hfind)
      have hnew : fact ∉ s.agenda := by
        simpa [Consultation.isPursuing] using List.find?_some hfind
      dsimp only
      split
      · next hroom => exact hpush fact hawaits hnew hroom
      · next hroom => exact hfull fact hawaits hnew (Nat.not_lt.1 hroom)
  | none =>
      have hall : ∀ fact, finding.Awaits fact → fact ∈ s.agenda := by
        intro fact hawaits
        have hmem :=
          List.find?_eq_none.1 hfind fact (Finding.mem_unknownFacts.2 hawaits)
        simpa [Consultation.isPursuing] using hmem
      exact hgiveUp hall

private theorem conclude_post {goal name literal value : String} {record : Record}
    {s : Consultation} {P : Except Fault Unit → Consultation → Prop}
    (hgoal : s.facts.resolve goal = .ok (.literal name))
    (hget : s.facts.get? name = some record)
    (hvalue : s.facts.resolve record.value = .ok (.literal literal))
    (h : P (.ok ()) s.pop) :
    (conclude goal value s).Post P := by
  have hlookup : s.pop.facts.lookup goal = .ok (some literal) :=
    Facts.lookup_eq_some_iff.2 ⟨name, record, hgoal, hget, hvalue⟩
  unfold conclude
  rw [hlookup]
  exact h

/-- A turn is one of the cases of `Turn`. -/
theorem turn_cases (kb : KnowledgeBase) (limits : Limits) (goal : String)
    (s : Consultation) :
    (turn kb limits goal s).Post (Turn kb limits goal s) := by
  refine Run.Post.andThen (solve_cases kb goal s) (fun solution s' h => ?_)
    (fun fault s' h => ?_)
  · -- What follows the pursuit of a goal does not change what it comes to.
    have goesOn {r : Run Unit}
        (hr : r.Post fun x t => Turn kb limits goal s (x.map fun _ => none) t) :
        (r.andThen fun _ t => Run.ok (none : Option Pending) t []).Post
          (Turn kb limits goal s) := by
      rw [Run.andThen_ok]
      exact hr
    cases h with
    | blocked hgoal =>
        apply goesOn
        refine pursue_post (fun fact hawaits hnew hroom => ?_)
          (fun fact hawaits hnew hfull => ?_) (fun hall => ?_)
        · obtain rfl := Finding.awaits_missing_iff.1 hawaits
          exact .pushed (.target hgoal) hnew hroom
        · obtain rfl := Finding.awaits_missing_iff.1 hawaits
          exact .overflow (.target hgoal) hnew hfull
        · exact giveUp_post_of_unknown hgoal
            (.dropped hgoal (hall _ (Finding.awaits_missing_iff.2 rfl)))
    | @undecided name findings hgoal hfacts hquestions =>
        apply goesOn
        refine pursue_post (fun fact hawaits hnew hroom => ?_)
          (fun fact hawaits hnew hfull => ?_) (fun hall => ?_)
        · obtain ⟨finding, hmem, -, hawaits⟩ := Finding.awaits_because_map_iff.1 hawaits
          exact .pushed (.rule hgoal hfacts hmem hawaits) hnew hroom
        · obtain ⟨finding, hmem, -, hawaits⟩ := Finding.awaits_because_map_iff.1 hawaits
          exact .overflow (.rule hgoal hfacts hmem hawaits) hnew hfull
        · refine giveUp_post hgoal
            (.assumed hgoal hfacts (fun finding hmem fact hawaits => ?_)
            hquestions)
          exact hall fact (Finding.awaits_because_map_iff.2
            ⟨finding, hmem, (hfacts.undecided finding hmem).1, hawaits⟩)
    | asked hgoal hfacts hquestion => exact .asked hgoal hfacts hquestion
    | @known name record s' hfired hgoal hget =>
        have hgoal' : s'.facts.resolve goal = .ok (.literal name) :=
          hfired.keeps.extends.resolve_literal hgoal
        refine Run.Post.andThen
          (Q := fun x t => s'.facts.resolve record.value = x ∧ t = s') ⟨rfl, rfl⟩
          (fun resolution t ht => ?_) (fun fault t ht => ?_)
        · obtain ⟨hvalue, rfl⟩ := ht
          cases resolution with
          | literal value =>
              apply goesOn
              exact conclude_post hgoal' hget hvalue
                (.concluded hfired hgoal hget hvalue)
          | unknown fact =>
              apply goesOn
              refine pursue_post (fun fact' hawaits hnew hroom => ?_)
                (fun fact' hawaits hnew hfull => ?_) (fun hall => ?_)
              · obtain rfl := Finding.awaits_missing_iff.1 hawaits
                exact .pushed (.value hfired hgoal hget hvalue) hnew hroom
              · obtain rfl := Finding.awaits_missing_iff.1 hawaits
                exact .overflow (.value hfired hgoal hget hvalue) hnew hfull
              · have hmem := hall fact (Finding.awaits_missing_iff.2 rfl)
                refine giveUp_post hgoal' ?_
                -- The fact is recorded, so that assuming it undefined changes nothing.
                rw [Consultation.assumeUndefined_of_get? (s := t.pop) hget]
                exact .stalled hfired hgoal hget hvalue hmem
        · obtain ⟨hvalue, rfl⟩ := ht
          exact .circularValue hfired hgoal hget hvalue
  · cases h with
    | circular hgoal => exact .circular hgoal
    | circularRule hrule heval => exact .circularRule hrule heval

/-! ## Turns that fail -/

section

variable {kb : KnowledgeBase} {limits : Limits} {goal : String} {s : Consultation}
    {fault : Fault}

/-- A goal can be pursued or given up, unless the agenda is too long. -/
private theorem pursue_of_error {resolution : Resolution} {finding : Finding}
    (hgoal : s.facts.resolve goal = .ok resolution)
    (h : (pursue limits goal finding s).result = .error fault) :
    (pursue limits goal finding s).state = s ∧
      ∃ fact, fault = .agendaLimit limits.maxAgenda fact := by
  have hpost : (pursue limits goal finding s).Post fun x t => x = .error fault →
      t = s ∧ ∃ fact, fault = .agendaLimit limits.maxAgenda fact := by
    refine pursue_post (fun _ _ _ _ => nofun)
      (fun fact _ _ _ hfull => ⟨rfl, fact, (Except.error.inj hfull).symm⟩) (fun _ => ?_)
    cases resolution with
    | literal name => exact giveUp_post hgoal nofun
    | unknown fact => exact giveUp_post_of_unknown hgoal nofun
  exact hpost h

/-- A turn fails when the attempt to settle its goal does, when the value of the goal
is circular, or when the agenda is too long.  It leaves what the attempt has left. -/
theorem turn_of_error (h : (turn kb limits goal s).result = .error fault) :
    (turn kb limits goal s).state = (solve kb goal s).state ∧
      (∀ pending, (solve kb goal s).result ≠ .ok (.ask pending)) ∧
      ((∃ fact, fault = .agendaLimit limits.maxAgenda fact) ∨
        (turn kb limits goal s).trace = (solve kb goal s).trace ∧
          ∀ finding, (solve kb goal s).result ≠ .ok (.unknown finding)) := by
  have hattempt : Attempt kb goal s (solve kb goal s).result (solve kb goal s).state :=
    solve_cases kb goal s
  -- Nothing goes wrong after the pursuit of a goal.
  have goesOn {r : Run Unit}
      (h : (r.andThen fun _ u => Run.ok (none : Option Pending) u []).result =
        .error fault) :
      r.result = .error fault ∧
        (r.andThen fun _ u => Run.ok (none : Option Pending) u []).state = r.state := by
    rw [Run.andThen_ok] at h ⊢
    cases hresult : r.result with
    | ok _ =>
        rw [hresult] at h
        cases h
    | error fault' =>
        rw [hresult] at h
        cases h
        exact ⟨rfl, rfl⟩
  unfold turn at h ⊢
  cases hsolve : (solve kb goal s).result with
  | error fault' =>
      rw [Run.andThen_of_error hsolve]
      exact ⟨rfl, nofun, .inr ⟨rfl, nofun⟩⟩
  | ok solution =>
      rw [hsolve] at hattempt
      rw [Run.andThen_of_ok hsolve] at h ⊢
      cases solution with
      | ask pending => exact nomatch h
      | unknown finding =>
          obtain ⟨resolution, hgoal⟩ := hattempt.resolve_of_unknown
          obtain ⟨hfail, hstate⟩ := goesOn h
          obtain ⟨hkept, hfull⟩ := pursue_of_error hgoal hfail
          exact ⟨hstate.trans hkept, nofun, .inl hfull⟩
      | known record =>
          obtain ⟨name, hgoal, hget⟩ := hattempt.resolve_of_known
          dsimp only at h ⊢
          cases hvalue : (solve kb goal s).state.facts.resolve record.value with
          | error fault' =>
              rw [Run.andThen_of_error (r := Run.lift _ _) rfl]
              exact ⟨rfl, nofun, .inr ⟨List.append_nil _, nofun⟩⟩
          | ok resolution =>
              rw [hvalue, Run.andThen_of_ok (r := Run.lift _ _) rfl] at h
              rw [Run.andThen_of_ok (r := Run.lift _ _) rfl]
              cases resolution with
              | unknown fact =>
                  obtain ⟨hfail, hstate⟩ := goesOn h
                  obtain ⟨hkept, hfull⟩ := pursue_of_error hgoal hfail
                  exact ⟨hstate.trans hkept, nofun, .inl hfull⟩
              | literal value =>
                  have hconcluded : (conclude goal value (solve kb goal s).state).Post
                      fun x _ => x ≠ .error fault :=
                        conclude_post hgoal hget hvalue nofun
                  exact absurd (goesOn h).1 hconcluded

end

end Consult
