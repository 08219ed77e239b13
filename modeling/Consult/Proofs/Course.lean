import Consult.Proofs.Frame
import Mathlib.Logic.Relation

/-!
# The course of a consultation

A caller steps a consultation, answers the questions that it has handed out, or
skips them, in any order; `Reachable` says what this may come to, failed calls
included.  None of it asks for a knowledge base that has been checked: an engine
is one whose runs are those of its knowledge base, with its limits.

A call goes through further states on its way.  `Moves` lists these one at a
time: a turn of the agenda, a sweep of the rules, the withdrawal of a question, a
reply.  What holds after every move holds in all that a caller can reach, and in
between.

## Main results

* `Course.continues` — moves take nothing back.
* `Reachable.course` — what a caller can reach is reached by moves.
-/

namespace Consult

namespace Consultation

/-- The state after a sweep of the rules, in which the rule that it ends with has
fired. -/
def swept (s : Consultation) : Consultation :=
  match (sweep s.facts s.questions s.rules).ending with
  | .ok (some (rule, finding)) =>
    ({ s with rules := (sweep s.facts s.questions s.rules).rules }.applyRule
      rule finding).1
  | _ => { s with rules := (sweep s.facts s.questions s.rules).rules }

end Consultation

namespace Engine

/-- A consultation under way, with the questions that it has handed out so far,
the latest first. -/
structure Progress where
  state : Consultation
  asked : List Pending

/-- The questions that a step hands out: at most one. -/
def handedOut : Except Fault Outcome → List Pending
  | .ok (.pending pending) => [pending]
  | _ => []

/-- What is handed out is one of these questions. -/
def Offers (questions : List Question) (x : Except Fault Outcome) : Prop :=
  ∀ pending ∈ handedOut x, pending.question ∈ questions

theorem map_question_handedOut (x : Except Fault Outcome) :
    (handedOut x).map Pending.question = questionsOf Outcome.question? x := by
  cases x with
  | error fault => rfl
  | ok outcome => cases outcome <;> rfl

end Engine

/-! ## What a caller may do -/

namespace KnowledgeBase

open Engine (Progress Offers handedOut reply reply_cases reply_continues
  map_question_handedOut)

/-- What a caller may do: step, whatever comes of it, or reply to a question that
has been handed out at some time. -/
inductive Advances (kb : KnowledgeBase) (limits : Limits) :
    Progress → Progress → Prop where
  | step (p : Progress) :
      Advances kb limits p ⟨(kb.step limits p.state).state,
        handedOut (kb.step limits p.state).result ++ p.asked⟩
  | answer {p : Progress} {pending : Pending} (hasked : pending ∈ p.asked)
      (index : Nat) :
      Advances kb limits p ⟨(Engine.answer pending index p.state).state, p.asked⟩
  | skip {p : Progress} {pending : Pending} (hasked : pending ∈ p.asked) :
      Advances kb limits p ⟨(Engine.skip pending p.state).state, p.asked⟩

/-- A caller can bring a new consultation to `p`, with the same limits all along. -/
def Reachable (kb : KnowledgeBase) (limits : Limits) (p : Progress) : Prop :=
  Relation.ReflTransGen (kb.Advances limits) ⟨kb.start, []⟩ p

/-- A caller can bring a new consultation to `p`, with limits that may be others
for each step. -/
def Attains (kb : KnowledgeBase) (p : Progress) : Prop :=
  Relation.ReflTransGen (fun q r => ∃ limits, kb.Advances limits q r)
    ⟨kb.start, []⟩ p

/-- The smallest parts of a consultation that can be told apart. -/
inductive Moves (kb : KnowledgeBase) (limits : Limits) :
    Consultation → Consultation → Prop where
  | turn {s : Consultation} {goal : String} {rest : List String}
      (hback : kb.strategy = .backward) (hagenda : s.agenda = goal :: rest) :
      Moves kb limits s (turn kb limits goal s).state
  | sweep (hforth : kb.strategy = .forward) (s : Consultation) :
      Moves kb limits s s.swept
  | withdraw (hforth : kb.strategy = .forward) (s : Consultation) (fact : String) :
      Moves kb limits s (s.withdraw fact)
  | reply {pending : Pending} (hquestion : pending.question ∈ kb.questions)
      (index : Option Nat) (s : Consultation) :
      Moves kb limits s (reply pending index s).state

/-- `kb.Course limits s s'`: moves lead from `s` to `s'`. -/
def Course (kb : KnowledgeBase) (limits : Limits) :
    Consultation → Consultation → Prop :=
  Relation.ReflTransGen (kb.Moves limits)

/-- The rules and questions that are left are those of the knowledge base, and so
are the questions that have been asked. -/
structure Supplies (kb : KnowledgeBase) (p : Progress) : Prop where
  rules : p.state.rules ⊆ kb.rules
  questions : p.state.questions ⊆ kb.questions
  asked : ∀ pending ∈ p.asked, pending.question ∈ kb.questions

end KnowledgeBase

namespace Engine

/-- A caller can bring a new consultation with the engine to `p`. -/
def Reachable (e : Engine) : Progress → Prop := e.knowledge.Reachable e.limits

/-- Moves of the engine lead from one state to the other. -/
def Course (e : Engine) : Consultation → Consultation → Prop :=
  e.knowledge.Course e.limits

end Engine

namespace KnowledgeBase

open Engine (Progress Offers handedOut reply reply_cases reply_continues
  map_question_handedOut)

variable {kb : KnowledgeBase} {limits : Limits}

/-! ## Moves take nothing back -/

/-- A sweep takes rules out of those that are left, and may let one that holds fire. -/
theorem swept_cases (s : Consultation) : ∃ left, left.Sublist s.rules ∧
    (s.swept = { s with rules := left } ∨
      ∃ rule ∈ s.rules, ∃ finding, rule.condition.evaluate s.facts = .ok finding ∧
        finding.verdict = .yes ∧
        s.swept =
          (Consultation.applyRule { s with rules := left } rule finding).1) := by
  have hswept := sweep_cases s.facts s.questions s.rules
  refine ⟨(Consult.sweep s.facts s.questions s.rules).rules, ?_⟩
  unfold Consultation.swept
  generalize (Consult.sweep s.facts s.questions s.rules).ending = ending at hswept ⊢
  generalize (Consult.sweep s.facts s.questions s.rules).askFor = askFor at hswept
  cases hswept with
  | circular hleft _ _ _ => exact ⟨hleft.sublist, .inl rfl⟩
  | @fired rule finding gone _ _ hleft _ heval hyes =>
      have hrule : rule ∈ s.rules := hleft.mem_iff.2 (.inl (by simp))
      exact ⟨hleft.sublist, .inr ⟨rule, hrule, finding, heval, hyes, rfl⟩⟩
  | exhausted hleft _ _ => exact ⟨hleft.sublist, .inl rfl⟩
  | asks hleft _ _ _ _ => exact ⟨hleft.sublist, .inl rfl⟩

theorem swept_continues (s : Consultation) : s.swept.Continues s [] := by
  obtain ⟨left, hleft, hsame | ⟨rule, -, finding, -, -, hfired⟩⟩ := swept_cases s
  · rw [hsame]
    exact .of_sublist hleft
  · rw [hfired]
    exact (Consultation.Continues.of_sublist hleft).trans (.of_apply _ _ _)

/-- A move takes nothing back. -/
theorem Moves.continues {s s' : Consultation} (h : kb.Moves limits s s') :
    ∃ asked, s'.Continues s asked := by
  cases h with
  | @turn _ goal _ _ _ => exact ⟨_, turn_continues kb limits goal s⟩
  | sweep _ _ => exact ⟨_, swept_continues s⟩
  | withdraw _ _ fact =>
      cases hquestion : s.questions.find? (·.infers fact) with
      | some question => exact ⟨_, .of_withdraw hquestion⟩
      | none =>
          have hsame : s.withdraw fact = s := by
            unfold Consultation.withdraw
            rw [List.eraseP_of_forall_not
              (by simpa using List.find?_eq_none.1 hquestion)]
          rw [hsame]
          exact ⟨_, .refl s⟩
  | @reply pending _ index _ => exact ⟨_, reply_continues pending index s⟩

/-- Moves take nothing back. -/
theorem Course.continues {s s' : Consultation} (h : kb.Course limits s s') :
    ∃ asked, s'.Continues s asked := by
  induction h with
  | refl => exact ⟨_, .refl s⟩
  | tail _ hmove ih =>
      obtain ⟨asked, hbefore⟩ := ih
      obtain ⟨asked', hafter⟩ := hmove.continues
      exact ⟨_, hbefore.trans hafter⟩

theorem Moves.keeps {s s' : Consultation} (h : kb.Moves limits s s') :
    s'.facts.Keeps s.facts := by
  obtain ⟨asked, hcontinues⟩ := h.continues
  exact hcontinues.keeps

theorem Course.keeps {s s' : Consultation} (h : kb.Course limits s s') :
    s'.facts.Keeps s.facts := by
  obtain ⟨asked, hcontinues⟩ := h.continues
  exact hcontinues.keeps

theorem Course.questions {s s' : Consultation} (h : kb.Course limits s s') :
    s'.questions ⊆ s.questions := by
  obtain ⟨asked, hcontinues⟩ := h.continues
  exact hcontinues.questions.sublist.subset

theorem Course.rules {s s' : Consultation} (h : kb.Course limits s s') :
    s'.rules ⊆ s.rules := by
  obtain ⟨asked, hcontinues⟩ := h.continues
  exact hcontinues.rules.subset

/-! ## Calls consist of moves -/

private theorem backwardFor_course (hback : kb.strategy = .backward) (rounds : Nat) :
    ∀ s, (backwardFor kb limits rounds s).Post fun _ s' => kb.Course limits s s' := by
  refine backwardFor_post_of_turn
    (P := fun _ s _ s' => kb.Course limits s s') ?_ ?_ ?_ rounds
  · exact fun _ _ _ => .refl
  · exact fun _ _ => .refl
  · intro _ s goal rest hagenda
    have hmove : (Consult.turn kb limits goal s).Post fun _ t => kb.Moves limits s t :=
      .turn hback hagenda
    refine hmove.mono ?_
    rintro (fault | _ | pending) t ht
    · exact .single ht
    · exact fun _ _ hrest => .head ht hrest
    · exact .single ht

private theorem saturate_course (hforth : kb.strategy = .forward)
    (askFor : Option String) (s : Consultation) :
    (saturate askFor s).Post fun _ s' => kb.Course limits s s' := by
  unfold saturate askToSettle
  split
  · split
    · exact .refl
    · exact .single (.withdraw hforth s _)
  · exact .refl

private theorem forwardFor_course (hforth : kb.strategy = .forward) (rounds : Nat) :
    ∀ s, (forwardFor limits rounds s).Post fun _ s' => kb.Course limits s s' := by
  have hsweep (s : Consultation) : kb.Moves limits s s.swept := .sweep hforth s
  unfold Consultation.swept at hsweep
  refine forwardFor_post_of_sweep
    (P := fun _ s _ s' => kb.Course limits s s') ?_ ?_ ?_ ?_ rounds
  · exact fun _ => .refl
  · intro _ s fault hending
    have hmove := hsweep s
    rw [hending] at hmove
    exact .single hmove
  · intro _ s hending
    have hmove := hsweep s
    rw [hending] at hmove
    exact .head hmove (saturate_course hforth _ _)
  · intro _ s rule finding hending _ _ hrest
    have hmove := hsweep s
    rw [hending] at hmove
    exact .head hmove hrest

/-- A step consists of moves, and hands out a question that is left. -/
theorem course_step (kb : KnowledgeBase) (limits : Limits) (s : Consultation) :
    (kb.step limits s).Post fun x s' =>
      kb.Course limits s s' ∧ Offers s.questions x := by
  constructor
  · show (kb.step limits s).Post fun _ s' => kb.Course limits s s'
    unfold step
    split
    · next hback => exact backwardFor_course hback _ s
    · next hforth => exact forwardFor_course hforth _ s
  · intro pending hpending
    have hquestion := List.mem_map_of_mem (f := Pending.question) hpending
    rw [map_question_handedOut] at hquestion
    exact (kb.step_continues limits s).questions.mem_iff.2 (.inl hquestion)

theorem Advances.course {p p' : Progress} (h : kb.Advances limits p p')
    (hsupplies : kb.Supplies p) : kb.Course limits p.state p'.state := by
  cases h with
  | step => exact (course_step kb limits p.state).1
  | @answer pending hmem index =>
      have hmove : kb.Moves limits p.state (reply pending (some index) p.state).state :=
        .reply (hsupplies.asked pending hmem) _ _
      have hstate : (reply pending (some index) p.state).state =
          (Engine.answer pending index p.state).state := by
        unfold reply Engine.answer
        dsimp only
        split <;> rfl
      rw [hstate] at hmove
      exact .single hmove
  | @skip pending hmem =>
      exact .single (.reply (hsupplies.asked pending hmem) none p.state)

theorem supplies_start (kb : KnowledgeBase) : kb.Supplies ⟨kb.start, []⟩ where
  rules := List.Subset.refl _
  questions := List.Subset.refl _
  asked := by simp

/-- No rule and no question comes from elsewhere. -/
theorem Advances.supplies {p p' : Progress} (h : kb.Advances limits p p')
    (hsupplies : kb.Supplies p) : kb.Supplies p' where
  rules := List.Subset.trans (h.course hsupplies).rules hsupplies.rules
  questions := List.Subset.trans (h.course hsupplies).questions hsupplies.questions
  asked := by
    cases h with
    | step =>
        intro pending hmem
        rcases List.mem_append.1 hmem with hnew | hold
        · exact hsupplies.questions ((course_step kb limits p.state).2 pending hnew)
        · exact hsupplies.asked pending hold
    | answer _ _ => exact hsupplies.asked
    | skip _ => exact hsupplies.asked

theorem Reachable.course_and_supplies {p : Progress} (h : kb.Reachable limits p) :
    kb.Course limits kb.start p.state ∧ kb.Supplies p := by
  induction h with
  | refl => exact ⟨.refl, kb.supplies_start⟩
  | tail _ hadvance ih =>
      obtain ⟨hcourse, hsupplies⟩ := ih
      exact ⟨hcourse.trans (hadvance.course hsupplies), hadvance.supplies hsupplies⟩

/-- What a caller can reach is reached by moves. -/
theorem Reachable.course {p : Progress} (h : kb.Reachable limits p) :
    kb.Course limits kb.start p.state :=
  h.course_and_supplies.1

theorem Reachable.attains {p : Progress} (h : kb.Reachable limits p) :
    kb.Attains p := by
  induction h with
  | refl => exact .refl
  | tail _ hadvance ih => exact ih.tail ⟨limits, hadvance⟩

end KnowledgeBase

end Consult
