import Consult.Proofs.Rounds
import Consult.Proofs.Sweep

/-!
# Limits only cut a call short

A call that a limit has cut short leaves a state from which it can be taken up again.
With limits that are wide enough, the second call comes to what a single one would
have come to, and a call that is not cut short does not depend on its limits at all.

Chaining in either direction repeats a round: a turn for the goal in front of the
agenda, or a sweep of the rules.  A call that is short of rounds ends between two
of them, so that the next call does what is left.  A turn for which the agenda is
too long ends in its middle, and a rule may have fired by then.  Its consequences
are recorded, so the turn that is made in its place finds the goal known and goes
on with what it refers to.

## Main results

* `turn_of_le`, `turn_again` — a turn with a longer agenda, at once and in
  place of one that failed.
* `backwardFor_of_le`, `backwardFor_resumed` — the same for backward chaining.
* `forwardFor_of_le`, `forwardFor_resumed` — the same for forward chaining.
* `limits_only_cut_short` — both directions.
-/

namespace Consult

instance : LE Limits where
  le limits limits' :=
    limits.maxSteps ≤ limits'.maxSteps ∧ limits.maxAgenda ≤ limits'.maxAgenda

/-! ## Calls that are cut short -/

/-- A limit was exceeded. -/
def Fault.OfLimit : Fault → Prop
  | .stepLimit _ => True
  | .agendaLimit _ _ => True
  | _ => False

/-- A limit has cut the call short. -/
def CutShort {α : Type} : Except Fault α → Prop
  | .ok _ => False
  | .error fault => fault.OfLimit

/-- Two runs come to the same and leave the same state. -/
structure Run.SameEnd {α : Type} (r r' : Run α) : Prop where
  result : r.result = r'.result
  state : r.state = r'.state

namespace Run

variable {α β : Type}

@[refl] theorem SameEnd.refl (r : Run α) : r.SameEnd r := ⟨rfl, rfl⟩

/-- Runs with the same end go on in the same way. -/
theorem SameEnd.andThen {r r' : Run α} (h : r.SameEnd r')
    (next : α → Consultation → Run β) :
    (r.andThen next).SameEnd (r'.andThen next) := by
  obtain ⟨result, state, trace⟩ := r
  obtain ⟨rfl, rfl⟩ := h
  cases hresult : r'.result with
  | ok a =>
      rw [andThen_of_ok hresult, andThen_of_ok (r := ⟨_, _, _⟩) rfl]
      exact ⟨rfl, rfl⟩
  | error fault =>
      rw [andThen_of_error hresult, andThen_of_error (r := ⟨_, _, _⟩) rfl]
      exact ⟨rfl, rfl⟩

theorem cutShort_andThen {r : Run α} (h : CutShort r.result)
    (next : α → Consultation → Run β) : CutShort (r.andThen next).result := by
  cases hresult : r.result with
  | ok a =>
      rw [hresult] at h
      exact h.elim
  | error fault =>
      rw [hresult] at h
      rw [andThen_of_error hresult]
      exact h

/-- A run that is not cut short is the same when its second part is, as long as that
is not cut short. -/
theorem andThen_of_le {r : Run α} {next next' : α → Consultation → Run β}
    (h : ¬CutShort (r.andThen next).result)
    (hnext : ∀ a s, ¬CutShort (next a s).result → next' a s = next a s) :
    r.andThen next' = r.andThen next := by
  cases hresult : r.result with
  | error fault => rw [andThen_of_error hresult, andThen_of_error hresult]
  | ok a =>
      rw [andThen_of_ok hresult] at h
      rw [andThen_of_ok hresult, andThen_of_ok hresult, hnext a r.state h]

end Run

/-! ## One turn -/

section

variable {kb : KnowledgeBase} {limits limits' : Limits} {goal : String}
    {s : Consultation}

/-- A goal is pursued in the same way with a longer agenda, if the
agenda is not too long. -/
theorem pursue_of_le (hle : limits.maxAgenda ≤ limits'.maxAgenda) {finding : Finding}
    (h : ¬CutShort (pursue limits goal finding s).result) :
    pursue limits' goal finding s = pursue limits goal finding s := by
  unfold pursue at h ⊢
  dsimp only at h ⊢
  cases hfind : finding.unknownFacts.find? (!s.isPursuing ·) with
  | none => rfl
  | some fact =>
      simp only [hfind] at h ⊢
      by_cases hroom : s.agenda.length < limits.maxAgenda
      · rw [if_pos hroom, if_pos (Nat.lt_of_lt_of_le hroom hle)]
      · rw [if_neg hroom] at h
        exact absurd trivial h

/-- A goal that leads to a recorded fact is settled at once. -/
theorem solve_of_get? {fact : String} {record : Record}
    (hgoal : s.facts.resolve goal = .ok (.literal fact))
    (hget : s.facts.get? fact = some record) :
    solve kb goal s = .ok (.known record) s [] := by
  unfold solve
  rw [Run.andThen_of_ok (r := Run.lift (s.facts.resolve goal) s) hgoal]
  simp only [Run.lift, hget]
  rfl

/-- An attempt to settle a goal leads no further when it is made again, unless a
question has been handed out. -/
theorem solve_again (h : ∀ pending, (solve kb goal s).result ≠ .ok (.ask pending)) :
    (solve kb goal (solve kb goal s).state).SameEnd (solve kb goal s) := by
  have hsolved : Attempt kb goal s (solve kb goal s).result (solve kb goal s).state :=
    solve_cases kb goal s
  generalize hresult : (solve kb goal s).result = x at h hsolved
  generalize hstate : (solve kb goal s).state = t at hsolved ⊢
  have hsame (ht : t = s) : (solve kb goal t).SameEnd (solve kb goal s) := ht ▸ .refl _
  cases hsolved with
  | known hfired hgoal hget =>
      -- The fact that the rule gave a value is recorded now.
      rw [solve_of_get? (hfired.keeps.extends.resolve_literal hgoal) hget]
      exact ⟨hresult.symm, hstate.symm⟩
  | asked _ _ _ => exact absurd rfl (h _)
  | _ => exact hsame rfl

/-- A turn is the same with a longer agenda, if the agenda is not too long for it. -/
theorem turn_of_le (hle : limits.maxAgenda ≤ limits'.maxAgenda)
    (h : ¬CutShort (turn kb limits goal s).result) :
    turn kb limits' goal s = turn kb limits goal s := by
  -- What follows the pursuit of a goal makes no difference.
  have goesOn {finding : Finding} {t : Consultation}
      (h : ¬CutShort ((pursue limits goal finding t).andThen
        fun _ u => Run.ok (none : Option Pending) u []).result) :
      ((pursue limits' goal finding t).andThen fun _ u =>
        Run.ok (none : Option Pending) u []) =
        (pursue limits goal finding t).andThen fun _ u => Run.ok none u [] := by
    rw [pursue_of_le hle fun hcut => h (Run.cutShort_andThen hcut _)]
  unfold turn at h ⊢
  refine Run.andThen_of_le h fun solution t h => ?_
  cases solution with
  | ask pending => rfl
  | unknown finding => exact goesOn h
  | known record =>
      refine Run.andThen_of_le h fun resolution u h => ?_
      cases resolution with
      | unknown fact => exact goesOn h
      | literal value => rfl

/-- Where a turn has failed, another one does what it would have done in its place. -/
theorem turn_again {fault : Fault} (h : (turn kb limits goal s).result = .error fault) :
    (turn kb limits' goal (turn kb limits goal s).state).SameEnd
      (turn kb limits' goal s) := by
  obtain ⟨hstate, hask, -⟩ := turn_of_error h
  rw [hstate]
  exact (solve_again hask).andThen _

theorem agenda_turn_of_error {fault : Fault}
    (h : (turn kb limits goal s).result = .error fault) :
    (turn kb limits goal s).state.agenda = s.agenda := by
  rw [(turn_of_error h).1, agenda_solve]

end

/-! ## Backward chaining -/

section

variable {kb : KnowledgeBase} {limits limits' : Limits}

/-- Calls that begin with turns of the same end have the same end. -/
theorem backwardFor_sameEnd {goal : String} {rest : List String} {s t : Consultation}
    (hs : s.agenda = goal :: rest) (ht : t.agenda = goal :: rest)
    (h : (turn kb limits goal t).SameEnd (turn kb limits goal s)) (rounds : Nat) :
    (backwardFor kb limits (rounds + 1) t).SameEnd
      (backwardFor kb limits (rounds + 1) s) := by
  unfold backwardFor
  simp only [hs, ht]
  exact h.andThen _

/-- A call that is not cut short is the same with wider limits. -/
theorem backwardFor_of_le (hle : limits.maxAgenda ≤ limits'.maxAgenda)
    {rounds rounds' : Nat} :
    ∀ {s : Consultation}, rounds ≤ rounds' →
      ¬CutShort (backwardFor kb limits rounds s).result →
      backwardFor kb limits' rounds' s = backwardFor kb limits rounds s := by
  induction rounds generalizing rounds' with
  | zero =>
      intro s _ h
      cases hagenda : s.agenda with
      | nil => rw [backwardFor_of_nil _ hagenda, backwardFor_of_nil _ hagenda]
      | cons goal rest =>
          rw [backwardFor_zero hagenda] at h
          exact absurd trivial h
  | succ rounds ih =>
      intro s hrounds h
      obtain ⟨more, rfl⟩ : ∃ more, rounds' = more + 1 := ⟨rounds' - 1, by omega⟩
      cases hagenda : s.agenda with
      | nil => rw [backwardFor_of_nil _ hagenda, backwardFor_of_nil _ hagenda]
      | cons goal rest =>
          cases hresult : (turn kb limits goal s).result with
          | error fault =>
              rw [backwardFor_of_error rounds hagenda hresult] at h ⊢
              have hsame : turn kb limits' goal s = turn kb limits goal s :=
                turn_of_le hle (by rw [hresult]; exact h)
              rw [backwardFor_of_error more hagenda (hsame ▸ hresult), hsame]
          | ok handed =>
              have hsame : turn kb limits' goal s = turn kb limits goal s :=
                turn_of_le hle (by rw [hresult]; exact id)
              cases handed with
              | some pending =>
                  rw [backwardFor_of_some rounds hagenda hresult,
                    backwardFor_of_some more hagenda (hsame ▸ hresult), hsame]
              | none =>
                  rw [backwardFor_of_none rounds hagenda hresult] at h ⊢
                  rw [backwardFor_of_none more hagenda (hsame ▸ hresult), hsame,
                    ih (Nat.le_of_succ_le_succ hrounds) h]

/-- A call that is taken up again with wider limits where it was cut short ends as it
would have ended with these limits. -/
theorem backwardFor_resumed (hle : limits.maxAgenda ≤ limits'.maxAgenda)
    {rounds rounds' rounds'' : Nat} :
    ∀ {s : Consultation}, rounds ≤ rounds' → rounds' ≤ rounds'' →
      CutShort (backwardFor kb limits rounds s).result →
      ¬CutShort (backwardFor kb limits' rounds' s).result →
      (backwardFor kb limits' rounds'' (backwardFor kb limits rounds s).state).SameEnd
        (backwardFor kb limits' rounds' s) := by
  induction rounds generalizing rounds' with
  | zero =>
      intro s _ hmore hcut h
      -- No round has been taken, so that the call begins once more.
      have hstate : (backwardFor kb limits 0 s).state = s := by
        cases hagenda : s.agenda with
        | nil =>
            rw [backwardFor_of_nil 0 hagenda]
            rfl
        | cons goal rest =>
            rw [backwardFor_zero hagenda]
            rfl
      rw [hstate, backwardFor_of_le (Nat.le_refl _) hmore h]
  | succ rounds ih =>
      intro s hrounds hmore hcut h
      obtain ⟨more, rfl⟩ : ∃ more, rounds' = more + 1 := ⟨rounds' - 1, by omega⟩
      cases hagenda : s.agenda with
      | nil =>
          rw [backwardFor_of_nil _ hagenda] at hcut
          exact hcut.elim
      | cons goal rest =>
          cases hresult : (turn kb limits goal s).result with
          | error fault =>
              rw [backwardFor_of_error rounds hagenda hresult] at hcut ⊢
              -- The agenda was too long for the turn, which is made again now.
              have hagenda' := (agenda_turn_of_error hresult).trans hagenda
              obtain ⟨most, rfl⟩ : ∃ most, rounds'' = most + 1 :=
                ⟨rounds'' - 1, by omega⟩
              rw [← backwardFor_of_le (Nat.le_refl _) hmore h]
              exact backwardFor_sameEnd hagenda hagenda' (turn_again hresult) most
          | ok handed =>
              have hsame : turn kb limits' goal s = turn kb limits goal s :=
                turn_of_le hle (by rw [hresult]; exact id)
              cases handed with
              | some pending =>
                  rw [backwardFor_of_some rounds hagenda hresult] at hcut
                  exact hcut.elim
              | none =>
                  rw [backwardFor_of_none rounds hagenda hresult] at hcut ⊢
                  rw [backwardFor_of_none more hagenda (hsame ▸ hresult), hsame] at h ⊢
                  have hrest :=
                    ih (Nat.le_of_succ_le_succ hrounds) (Nat.le_of_succ_le hmore) hcut h
                  exact ⟨hrest.result, hrest.state⟩

end

/-! ## Forward chaining -/

section

variable {limits limits' : Limits}

/-- A call that is not cut short is the same with wider limits. -/
theorem forwardFor_of_le {rounds rounds' : Nat} :
    ∀ {s : Consultation}, rounds ≤ rounds' →
    ¬CutShort (forwardFor limits rounds s).result →
      forwardFor limits' rounds' s = forwardFor limits rounds s := by
  induction rounds generalizing rounds' with
  | zero =>
      intro s _ h
      exact absurd trivial h
  | succ rounds ih =>
      intro s hrounds h
      obtain ⟨more, rfl⟩ : ∃ more, rounds' = more + 1 := ⟨rounds' - 1, by omega⟩
      cases hending : (sweep s.facts s.questions s.rules).ending with
      | error fault =>
          rw [forwardFor_of_error limits rounds hending,
            forwardFor_of_error limits' more hending]
      | ok fires =>
          cases fires with
          | none =>
              rw [forwardFor_of_none limits rounds hending,
                forwardFor_of_none limits' more hending]
          | some fires =>
              rw [forwardFor_of_some limits rounds hending] at h ⊢
              rw [forwardFor_of_some limits' more hending]
              exact Run.andThen_of_le h fun _ _ => ih (Nat.le_of_succ_le_succ hrounds)

/-- A call that is taken up again with wider limits where it was cut short ends as it
would have ended with these limits. -/
theorem forwardFor_resumed {rounds rounds' rounds'' : Nat} : ∀ {s : Consultation},
    rounds ≤ rounds' → rounds' ≤ rounds'' →
      CutShort (forwardFor limits rounds s).result →
      ¬CutShort (forwardFor limits' rounds' s).result →
      (forwardFor limits' rounds'' (forwardFor limits rounds s).state).SameEnd
        (forwardFor limits' rounds' s) := by
  induction rounds generalizing rounds' with
  | zero =>
      intro s _ hmore _ h
      show (forwardFor limits' rounds'' s).SameEnd (forwardFor limits' rounds' s)
      rw [forwardFor_of_le hmore h]
  | succ rounds ih =>
      intro s hrounds hmore hcut h
      obtain ⟨more, rfl⟩ : ∃ more, rounds' = more + 1 := ⟨rounds' - 1, by omega⟩
      cases hending : (sweep s.facts s.questions s.rules).ending with
      | error fault =>
          have hswept := sweep_cases s.facts s.questions s.rules
          rw [hending] at hswept
          cases hswept with
          | circular _ _ _ heval =>
              obtain ⟨chain, rfl⟩ := Condition.circular_of_evaluate _ heval
              rw [forwardFor_of_error limits rounds hending] at hcut
              exact hcut.elim
      | ok fires =>
          cases fires with
          | none =>
              obtain ⟨outcome, houtcome⟩ :=
                exists_forwardFor_of_none limits rounds hending
              rw [houtcome] at hcut
              exact hcut.elim
          | some fires =>
              rw [forwardFor_of_some limits rounds hending,
                Run.andThen_of_ok (r := Run.ok () _ _) rfl] at hcut ⊢
              rw [forwardFor_of_some limits' more hending,
                Run.andThen_of_ok (r := Run.ok () _ _) rfl] at h ⊢
              have hrest :=
                ih (Nat.le_of_succ_le_succ hrounds) (Nat.le_of_succ_le hmore) hcut h
              exact ⟨hrest.result, hrest.state⟩

end

/-! ## Either direction -/

/-- Limits only cut a call short.  One that is not cut short is the same with wider
limits.  One that is cut short can be taken up again with wider limits, and comes to
what it would have come to if it had had these limits from the start. -/
theorem limits_only_cut_short {limits limits' : Limits} (hle : limits ≤ limits')
    {chain : Limits → Consultation → Run Outcome}
    (hchain : chain = forward ∨ ∃ kb, chain = backward kb) (s : Consultation) :
    (¬CutShort (chain limits s).result → chain limits' s = chain limits s) ∧
    (CutShort (chain limits s).result → ¬CutShort (chain limits' s).result →
      (chain limits' (chain limits s).state).result = (chain limits' s).result ∧
        (chain limits' (chain limits s).state).state = (chain limits' s).state) := by
  obtain ⟨hsteps, hagenda⟩ := hle
  rcases hchain with rfl | ⟨kb, rfl⟩
  · refine ⟨forwardFor_of_le hsteps, fun hcut h => ?_⟩
    have hsame := forwardFor_resumed hsteps (Nat.le_refl _) hcut h
    exact ⟨hsame.result, hsame.state⟩
  · refine ⟨backwardFor_of_le hagenda hsteps, fun hcut h => ?_⟩
    have hsame := backwardFor_resumed hagenda hsteps (Nat.le_refl _) hcut h
    exact ⟨hsame.result, hsame.state⟩

/-- Where the wine is kept. -/
def cellarQuestion : Question where
  description := "Where is the cellar?"
  options := [⟨"In the house", KeyMap.empty.insert "cellar" "house"⟩]

/-- The wine is where the cellar is, if there is any. -/
def wineKnowledge : KnowledgeBase where
  rules := [{ condition := .equals "stocked" "yes"
              consequences := KeyMap.empty.insert "wine" "$cellar" }]
  questions := [cellarQuestion]
  goals := [{ name := "wine" }]
  facts := KeyMap.empty.insert "stocked" "yes"

/-- One round and one goal. -/
def narrowLimits : Limits := { maxSteps := 1, maxAgenda := 1 }

/-- When the rule on the wine has fired, there is no room to pursue the cellar.  Taken
up again, the call asks for it, as it does when there is room from the start; forward
chaining is cut short after the same rule has fired. -/
theorem wine_taken_up_again :
    (backward wineKnowledge narrowLimits wineKnowledge.start).result =
        .error (.agendaLimit 1 "cellar") ∧
      (backward wineKnowledge narrowLimits wineKnowledge.start).state.facts.contains
        "wine" = true ∧
      (backward wineKnowledge {} wineKnowledge.start).result =
        .ok (.pending ⟨cellarQuestion, false⟩) ∧
      (backward wineKnowledge {}
          (backward wineKnowledge narrowLimits wineKnowledge.start).state).result =
        .ok (.pending ⟨cellarQuestion, false⟩) ∧
    (forward narrowLimits wineKnowledge.start).result = .error (.stepLimit 1) ∧
      (forward {} wineKnowledge.start).result = .ok .decided ∧
      (forward {} (forward narrowLimits wineKnowledge.start).state).result =
        .ok .decided := by
  have hle : narrowLimits ≤ {} := ⟨by decide, by decide⟩
  have hback : (backward wineKnowledge narrowLimits wineKnowledge.start).result =
      .error (.agendaLimit 1 "cellar") := by decide +kernel
  have hforth : (forward narrowLimits wineKnowledge.start).result =
      .error (.stepLimit 1) := rfl
  have hasked : (backward wineKnowledge {} wineKnowledge.start).result =
      .ok (.pending ⟨cellarQuestion, false⟩) := by decide +kernel
  have hdecided : (forward {} wineKnowledge.start).result = .ok .decided := rfl
  obtain ⟨hbackward, -⟩ :=
    (limits_only_cut_short hle (.inr ⟨wineKnowledge, rfl⟩) wineKnowledge.start).2
      (by rw [hback]; trivial) (by rw [hasked]; exact id)
  obtain ⟨hforward, -⟩ :=
    (limits_only_cut_short hle (.inl rfl) wineKnowledge.start).2
      (by rw [hforth]; trivial) (by rw [hdecided]; exact id)
  exact ⟨hback, by decide +kernel, hasked, hbackward.trans hasked,
    hforth, hdecided, hforward.trans hdecided⟩

end Consult
