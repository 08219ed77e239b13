import Consult.Proofs.Asking
import Mathlib.Algebra.BigOperators.Group.List.Lemmas
import Mathlib.Algebra.Order.Field.Rat
import Mathlib.Tactic.Linarith
import Mathlib.Tactic.Ring

/-!
# Responsibility is conserved

A unit of responsibility is handed down from a finding to its open grounds, and from
these to theirs, until it arrives at facts that are not known.  Consultations compute
the shares with binary64 numbers.  Here they are computed with rational numbers, where
nothing is rounded, and a balance can be drawn up.

Each finding that is reached passes on what it gets, with one exception: an undecided
finding without open grounds has nowhere to pass it on to, and its share is lost.  So
the facts get one unit, less what reaches such dead ends.  There are none below an
undecided condition, since each undecided part has a fact that is missing or an
undecided part of its own; nor below what the undecided rules for a goal come to.  A
goal for which no rule is left is a dead end itself.

## Main results

* `Finding.total_distribute` — a share arrives at the facts or is lost at dead ends.
* `Condition.lossless_of_evaluate` — an undecided condition leads to no dead ends.
* `responsibility_conserved` — the weights of the facts that a finding
  waits for, and their sum.
-/

namespace Consult

/-- Exact numbers. -/
instance : Weight ℚ where
  one := 1
  add a b := a + b
  share a n := a / n
  heavier a b := a > b

/-! ## Totals -/

section

variable {α : Type}

/-- The sum of all weights. -/
def total (entries : List (α × ℚ)) : ℚ := (entries.map (·.2)).sum

@[simp] theorem total_nil : total ([] : List (α × ℚ)) = 0 := rfl

@[simp] theorem total_cons (e : α × ℚ) (entries : List (α × ℚ)) :
    total (e :: entries) = e.2 + total entries := by
  simp [total]

@[simp] theorem total_append (entries more : List (α × ℚ)) :
    total (entries ++ more) = total entries + total more := by
  simp [total]

theorem total_perm {entries entries' : List (α × ℚ)} (h : entries.Perm entries') :
    total entries = total entries' :=
  (h.map _).sum_eq

end

/-- A share is added to the total of one fact and to no other. -/
theorem total_addShare (fact : String) (share : ℚ) (totals : List (String × ℚ)) :
    total (addShare fact share totals) = total totals + share := by
  induction totals with
  | nil => simp [addShare]
  | cons e rest ih =>
      rw [addShare, total_cons]
      split
      · rw [total_cons]
        exact add_right_comm _ _ _
      · rw [total_cons, ih, add_assoc]

theorem pos_addShare {fact : String} {share : ℚ} {totals : List (String × ℚ)}
    (hshare : 0 < share) (htotals : ∀ e ∈ totals, 0 < e.2) :
    ∀ e ∈ addShare fact share totals, 0 < e.2 := by
  induction totals with
  | nil => simpa [addShare] using hshare
  | cons e rest ih =>
      obtain ⟨he, hrest⟩ := List.forall_mem_cons.1 htotals
      rw [addShare]
      split
      · exact List.forall_mem_cons.2 ⟨add_pos he hshare, hrest⟩
      · exact List.forall_mem_cons.2 ⟨he, ih hrest⟩

/-! ## What a share reaches -/

mutual

/-- The findings that a share reaches with what reaches each: first the finding
itself, which hands an equal part to each of its open grounds, then what is
reached by way of these. -/
def Finding.reached (share : ℚ) : Finding → List (Finding × ℚ)
  | .because v gs =>
    (.because v gs, share) :: Ground.reachedAll (share / gs.countP Ground.isOpen) gs
termination_by structural f => f

/-- The findings that a share of a ground reaches. -/
def Ground.reached (share : ℚ) : Ground → List (Finding × ℚ)
  | .unknown _ => []
  | .finding f => if f.verdict = .maybe then f.reached share else []
  | .cause _ => []
termination_by structural g => g

/-- The findings that are reached if each of the grounds gets the same share. -/
def Ground.reachedAll (share : ℚ) : List Ground → List (Finding × ℚ)
  | [] => []
  | g :: gs => g.reached share ++ Ground.reachedAll share gs
termination_by structural gs => gs

end

/-- A finding that has no open ground cannot pass its share on. -/
def Finding.isDeadEnd (f : Finding) : Bool := f.grounds.countP Ground.isOpen = 0

/-- What is lost of the shares that reach findings. -/
def lost (reached : List (Finding × ℚ)) : ℚ := total (reached.filter (·.1.isDeadEnd))

@[simp] theorem lost_nil : lost [] = 0 := rfl

theorem lost_cons (e : Finding × ℚ) (reached : List (Finding × ℚ)) :
    lost (e :: reached) = (if e.1.isDeadEnd then e.2 else 0) + lost reached := by
  unfold lost
  rw [List.filter_cons]
  split <;> simp

@[simp] theorem lost_append (reached more : List (Finding × ℚ)) :
    lost (reached ++ more) = lost reached + lost more := by
  simp [lost]

/-! ## The balance -/

/-- A share of the finding that is passed on arrives at the facts or
is lost at dead ends. -/
def Finding.Balances (f : Finding) : Prop :=
  ∀ (share : ℚ) (totals : List (String × ℚ)),
    total (f.distribute share totals) + lost (f.reached share) = total totals + share

/-- A ground takes a share if it is open. -/
theorem Ground.total_distribute {g : Ground} (h : ∀ f, g = .finding f → f.Balances)
    (share : ℚ) (totals : List (String × ℚ)) :
    total (g.distribute share totals) + lost (g.reached share) =
      total totals + if g.isOpen then share else 0 := by
  cases g with
  | unknown fact => simp [distribute, reached, isOpen, total_addShare]
  | finding f =>
      by_cases hopen : f.verdict = .maybe
      · simpa [distribute, reached, isOpen, hopen] using h f rfl share totals
      · simp [distribute, reached, isOpen, hopen]
  | cause reason => simp [distribute, reached, isOpen]

/-- As many shares are taken as there are open grounds. -/
theorem Ground.total_distributeAll {gs : List Ground}
    (h : ∀ f, .finding f ∈ gs → f.Balances) (share : ℚ) (totals : List (String × ℚ)) :
    total (distributeAll share gs totals) + lost (reachedAll share gs) =
      total totals + gs.countP isOpen * share := by
  induction gs generalizing totals with
  | nil => simp [distributeAll, reachedAll]
  | cons g gs ih =>
      have hhead :=
        Ground.total_distribute (g := g) (fun f hf => h f (by simp [hf])) share totals
      have htail :=
        ih (fun f hf => h f (List.mem_cons_of_mem _ hf)) (g.distribute share totals)
      rw [distributeAll, reachedAll, lost_append, List.countP_cons]
      cases hopen : g.isOpen with
      | true =>
          simp only [hopen, if_true] at hhead ⊢
          push_cast
          linarith
      | false =>
          simp only [hopen, Bool.false_eq_true, if_false] at hhead ⊢
          push_cast
          linarith

namespace Finding

theorem balances (f : Finding) : f.Balances := by
  induction f using Finding.induction with
  | because v gs ih =>
      intro share totals
      have hgrounds :=
        Ground.total_distributeAll ih (share / gs.countP Ground.isOpen) totals
      have hpasses : total ((because v gs).distribute share totals) =
          total (Ground.distributeAll (share / gs.countP Ground.isOpen) gs totals) :=
            rfl
      rw [hpasses, reached, lost_cons, isDeadEnd, grounds_because]
      by_cases hcount : gs.countP Ground.isOpen = 0
      · -- Nothing is passed on, so all of it is lost.
        simp only [hcount, decide_true, if_true, Nat.cast_zero, zero_mul,
          div_zero] at hgrounds ⊢
        linarith
      · have hparts : (gs.countP Ground.isOpen : ℚ) *
            (share / gs.countP Ground.isOpen) = share :=
          mul_div_cancel₀ share (Nat.cast_ne_zero.2 hcount)
        simp only [hcount, decide_false, Bool.false_eq_true, if_false]
        linarith

/-- The facts get one unit, less what is lost. -/
theorem total_causes (f : Finding) : total (f.causes ℚ) = 1 - lost (f.reached 1) := by
  have hbalance := f.balances 1 []
  rw [total_nil, zero_add] at hbalance
  rw [causes, total_perm (perm_sortHeaviest _)]
  exact eq_sub_of_add_eq hbalance

/-- No fact is listed for nothing. -/
theorem pos_causes (f : Finding) : ∀ e ∈ f.causes ℚ, 0 < e.2 := by
  intro e he
  have he := (perm_sortHeaviest _).mem_iff.1 he
  have hkeeps :=
    f.distribute_keeps (P := fun totals : List (String × ℚ) => ∀ e ∈ totals, 0 < e.2)
    (Q := (0 < ·)) pos_addShare
      (fun hn hshare => div_pos hshare (Nat.cast_pos.2 hn)) one_pos
    (List.forall_mem_nil _)
  exact hkeeps e he

end Finding

/-! ## Where nothing is lost -/

namespace Finding

/-- Nothing is lost of any share that the finding gets. -/
def Lossless (f : Finding) : Prop := ∀ share : ℚ, lost (f.reached share) = 0

theorem Lossless.total_causes {f : Finding} (h : f.Lossless) :
    total (f.causes ℚ) = 1 := by
  rw [f.total_causes, h, sub_zero]

theorem lossless_missing (fact : String) : (missing fact).Lossless := fun _ => rfl

/-- A combination of undecided findings loses nothing if none of these does. -/
theorem lossless_because_map {v : Verdict} {fs : List Finding} (hne : fs ≠ [])
    (hopen : ∀ f ∈ fs, f.verdict = .maybe) (h : ∀ f ∈ fs, f.Lossless) :
    (because v (fs.map .finding)).Lossless := by
  intro share
  have hparts (each : ℚ) : lost (Ground.reachedAll each (fs.map .finding)) = 0 := by
    clear hne
    induction fs with
    | nil => rfl
    | cons f fs ih =>
        obtain ⟨hf, hfs⟩ := List.forall_mem_cons.1 hopen
        obtain ⟨hlossless, hrest⟩ := List.forall_mem_cons.1 h
        rw [List.map_cons, Ground.reachedAll, lost_append, ih hfs hrest, Ground.reached,
          if_pos hf, hlossless, add_zero]
  have hgoesOn : (because v (fs.map .finding)).isDeadEnd = false := by
    obtain ⟨f, hf⟩ := List.exists_mem_of_ne_nil fs hne
    have hcount : 0 < (fs.map Ground.finding).countP Ground.isOpen :=
      List.countP_pos_iff.2 ⟨.finding f, List.mem_map_of_mem hf, by
        simp [Ground.isOpen, hopen f hf]⟩
    simpa [isDeadEnd] using hcount.ne'
  rw [reached, lost_cons, hgoesOn, hparts, if_neg Bool.false_ne_true, add_zero]

theorem lossless_negate {f : Finding} (hopen : f.verdict = .maybe) (h : f.Lossless) :
    f.negate.Lossless :=
  lossless_because_map (List.cons_ne_nil f []) (by simpa using hopen) (by simpa using h)

/-- An undecided group loses nothing if its undecided members do not. -/
theorem lossless_ofGroup {k : Nat} {parts : List Finding}
    (hmaybe : (ofGroup k parts).verdict = .maybe)
    (h : ∀ f ∈ parts, f.verdict = .maybe → f.Lossless) :
    (ofGroup k parts).Lossless := by
  rw [ofGroup_of_maybe hmaybe]
  obtain ⟨f, hf, hopen⟩ := exists_undecided_of_ofGroup hmaybe
  refine lossless_because_map ?_ ?_ ?_
  · exact List.ne_nil_of_mem (List.mem_filter.2 ⟨hf, decide_eq_true hopen⟩)
  · intro g hg
    exact of_decide_eq_true (List.mem_filter.1 hg).2
  · intro g hg
    obtain ⟨hmem, hg⟩ := List.mem_filter.1 hg
    exact h g hmem (of_decide_eq_true hg)

end Finding

/-- An undecided condition leads to no dead ends. -/
theorem Condition.lossless_of_evaluate {facts : Facts} (c : Condition) :
    ∀ {f : Finding}, c.evaluate facts = .ok f → f.verdict = .maybe → f.Lossless := by
  induction c using Condition.induction with
  | compare c =>
      intro f hf hmaybe
      obtain ⟨fact, rfl⟩ := (evaluate_compare_eq_ok_iff.1 hf).eq_missing hmaybe
      exact Finding.lossless_missing fact
  | negation c ih =>
      intro f hf hmaybe
      obtain ⟨part, hpart, rfl⟩ := evaluate_negation_eq_ok_iff.1 hf
      have hopen := Finding.verdict_negate_eq_maybe_iff.1 hmaybe
      exact Finding.lossless_negate hopen (ih hpart hopen)
  | atLeast k cs ih =>
      intro f hf hmaybe
      obtain ⟨parts, hparts, rfl⟩ := evaluate_atLeast_eq_ok_iff.1 hf
      refine Finding.lossless_ofGroup hmaybe fun part hmem hopen => ?_
      obtain ⟨c, hc, heval⟩ := exists_mem_of_forall₂_evaluate hparts hmem
      exact ih c hc heval hopen

/-- What a goal waits for leads to no dead ends, unless all rules for it are ruled
out. -/
theorem Attempt.lossless_of_unknown {kb : KnowledgeBase} {goal : String}
    {s s' : Consultation} {f : Finding} (h : Attempt kb goal s (.ok (.unknown f)) s') :
    f.Lossless ∨ f = .because .maybe [] ∧ ∃ fact, Exhausted kb s goal fact := by
  cases h with
  | blocked hgoal => exact .inl (Finding.lossless_missing _)
  | @undecided fact findings hgoal hfacts hquestions =>
      by_cases hnone : findings = []
      · subst hnone
        exact .inr ⟨rfl, fact, hfacts.exhausted hgoal⟩
      · left
        refine Finding.lossless_because_map hnone
          (fun f hf => (hfacts.undecided f hf).1) ?_
        intro f hf
        obtain ⟨hmaybe, rule, -, heval⟩ := hfacts.undecided f hf
        exact rule.condition.lossless_of_evaluate heval hmaybe

/-- However little a fact is responsible for a finding, its weight is positive, and no
fact has two weights.  All weights together are one, less the shares of what is
reached by them and has no open ground to pass them on to.  Nothing is lost in this
way below an undecided condition, or below what the undecided rules for a goal come
to, so there the weights sum to one. -/
theorem responsibility_conserved (f : Finding) :
    (∀ e ∈ f.causes ℚ, 0 < e.2) ∧ ((f.causes ℚ).map (·.1)).Nodup ∧
      total (f.causes ℚ) = 1 - total ((f.reached 1).filter (·.1.isDeadEnd)) ∧
      (∀ (c : Condition) (facts : Facts), c.evaluate facts = .ok f →
        f.verdict = .maybe → total (f.causes ℚ) = 1) ∧
      ∀ (kb : KnowledgeBase) (goal : String) (s : Consultation),
        (solve kb goal s).result = .ok (.unknown f) →
          total (f.causes ℚ) = 1 ∨ f = .because .maybe [] ∧
            ∃ fact, Exhausted kb s goal fact := by
  refine ⟨f.pos_causes, f.nodup_causes, f.total_causes, ?condition, ?goal⟩
  case condition =>
    intro c facts heval hmaybe
    exact (c.lossless_of_evaluate heval hmaybe).total_causes
  case goal =>
    intro kb goal s hsolve
    have hattempt : Attempt kb goal s (.ok (.unknown f)) (solve kb goal s).state :=
      hsolve ▸ solve_cases kb goal s
    exact hattempt.lossless_of_unknown.imp_left Finding.Lossless.total_causes

/-- The cellar is flooded if two of these are true: the pump is off or the valve open;
the valve is not shut; the tank, which is empty, is full. -/
def floodCondition : Condition :=
  .atLeast 2 [.any [.equals "pump" "off", .equals "valve" "open"],
    .negation (.equals "valve" "shut"), .equals "tank" "full"]

/-- It is not flooded if the floor is dry. -/
def floodKnowledge : KnowledgeBase where
  rules := [
    { condition := floodCondition, consequences := KeyMap.empty.insert "flood" "yes" },
    { condition := .equals "floor" "dry",
      consequences := KeyMap.empty.insert "flood" "no" }]
  facts := KeyMap.empty.insert "tank" "empty"

/-- The valve counts for both of the parts that are undecided, the
pump for half of one. -/
def floodFinding : Finding :=
  .because .maybe [
    .finding
    (.because .maybe [.finding (.missing "pump"), .finding (.missing "valve")]),
    .finding (Finding.missing "valve").negate]

/-- What both rules together wait for. -/
def floodPending : Finding :=
  .because .maybe [.finding floodFinding, .finding (.missing "floor")]

/-- A finding with a part that waits for nothing. -/
def halfLost : Finding := .because .yes [.unknown "pump", .finding (.because .maybe [])]

/-- The condition and the two rules for the goal lose nothing, and the valve is the most
responsible for the condition; half of the last finding is lost. -/
theorem flood_attributed :
    (floodCondition.evaluate floodKnowledge.start.facts = .ok floodFinding ∧
        floodFinding.verdict = .maybe ∧
        floodFinding.causes ℚ = [("valve", 3 / 4), ("pump", 1 / 4)] ∧
        total (floodFinding.causes ℚ) = 1) ∧
      ((solve floodKnowledge "flood" floodKnowledge.start).result =
        .ok (.unknown floodPending) ∧
        floodPending.causes ℚ = [("floor", 1 / 2), ("valve", 3 / 8), ("pump", 1 / 8)] ∧
        total (floodPending.causes ℚ) = 1) ∧
      total (halfLost.causes ℚ) = 1 / 2 := by
  have heval : floodCondition.evaluate floodKnowledge.start.facts = .ok floodFinding :=
    rfl
  have hsolve : (solve floodKnowledge "flood" floodKnowledge.start).result =
      .ok (.unknown floodPending) := rfl
  obtain ⟨-, -, -, hcondition, -⟩ := responsibility_conserved floodFinding
  obtain ⟨-, -, -, -, hgoal⟩ := responsibility_conserved floodPending
  obtain ⟨-, -, hlost, -⟩ := responsibility_conserved halfLost
  have hdeadEnds : total ((halfLost.reached 1).filter (·.1.isDeadEnd)) =
      1 / 2 := by decide +kernel
  have hpending := (hgoal _ _ _ hsolve).resolve_right fun h => nomatch h.1
  refine ⟨⟨heval, rfl, by decide +kernel, hcondition _ _ heval rfl⟩,
    ⟨hsolve, by decide +kernel, hpending⟩, ?_⟩
  rw [hlost, hdeadEnds]
  norm_num

end Consult
