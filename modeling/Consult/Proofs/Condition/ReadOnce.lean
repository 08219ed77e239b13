import Consult.Proofs.Condition.Quorum
import Consult.Proofs.Model

/-!
# Conditions that read each fact once

A condition that is left undecided may have no need of the facts that it waits for.
That the lamp is on or not on is undecided while nobody has seen the lamp, and holds
whatever it turns out to be.

This takes two comparisons of the same fact.  If there are none, and all comparisons
are plain, then each of them can be given the answer that favours the condition, or
the one that does not, without regard for the others; under a negation it is the
opposite answer that favours.  When what is open has been answered in this way, all
undecided parts of the condition turn out the same, and they make up for what a group
still lacks, or leave it short.

## Main results

* `Verdict.atLeast_resolved` — how a group turns out when its undecided members do.
* `Condition.judge_supposing` — how a condition turns out under answers
  that favour it, or do not.
* `undecided_goes_either_way` — an undecided condition may yet hold, and may yet not
  hold.
-/

namespace Consult

namespace Verdict

/-- The verdict on what was undecided when all that was open has turned out in favour,
or against; other verdicts stay. -/
def resolved (favour : Bool) : Verdict → Verdict
  | yes => yes
  | no => no
  | maybe => if favour then yes else no

theorem resolved_of_ne_maybe (favour : Bool) {v : Verdict} (h : v ≠ maybe) :
    v.resolved favour = v := by
  cases v with
  | maybe => exact absurd rfl h
  | _ => rfl

/-- What favours the opposite is against. -/
theorem flip_resolved (favour : Bool) (v : Verdict) :
    (v.resolved (!favour)).flip = v.flip.resolved favour := by
  cases favour <;> cases v <;> rfl

private theorem count_yes_resolved (favour : Bool) (vs : List Verdict) :
    (vs.map (resolved favour)).count yes =
      vs.count yes + if favour then vs.count maybe else 0 := by
  induction vs with
  | nil => cases favour <;> rfl
  | cons v vs ih =>
      rw [List.map_cons, List.count_cons, ih, List.count_cons, List.count_cons]
      cases favour <;> cases v <;> simp [resolved] <;> omega

private theorem count_maybe_resolved (favour : Bool) (vs : List Verdict) :
    (vs.map (resolved favour)).count maybe = 0 := by
  refine List.count_eq_zero.2 fun hmem => ?_
  obtain ⟨v, -, hv⟩ := List.mem_map.1 hmem
  cases favour <;> cases v <;> cases hv

/-- A group turns out as its undecided members do, if it is undecided itself. -/
theorem atLeast_resolved (favour : Bool) (k : Nat) (vs : List Verdict) :
    atLeast k (vs.map (resolved favour)) = (atLeast k vs).resolved favour := by
  simp only [atLeast, ofCounts, count_yes_resolved, count_maybe_resolved]
  cases favour <;> simp only [Bool.false_eq_true, if_true, if_false] <;> split_ifs <;>
    first | rfl | omega

end Verdict

/-- The same with judgements, which may be faults. -/
theorem Judgement.atLeast_resolved (favour : Bool) (k : Nat) (parts : List Judgement) :
    atLeast k (parts.map (Except.map (.resolved favour))) =
      (atLeast k parts).map (.resolved favour) := by
  rw [atLeast, atLeast, mapM_map_map]
  cases parts.mapM id with
  | error fault => rfl
  | ok vs => exact congrArg Except.ok (Verdict.atLeast_resolved favour k vs)

namespace Condition

/-! ## Answers that favour a condition -/

mutual

/-- The comparisons in a condition, each with the answer to it that favours the
condition, or that does not. -/
def stances (favour : Bool) : Condition → List (Comparison × Bool)
  | .compare c => [(c, favour)]
  | .negation c => c.stances (!favour)
  | .atLeast _ cs => stancesList favour cs
termination_by structural c => c

/-- The comparisons in a list of conditions, with the answers that
favour these, or do not. -/
def stancesList (favour : Bool) : List Condition → List (Comparison × Bool)
  | [] => []
  | c :: cs => c.stances favour ++ stancesList favour cs
termination_by structural cs => cs

end

theorem stancesList_eq (favour : Bool) (cs : List Condition) :
    stancesList favour cs = cs.flatMap (stances favour) := by
  induction cs with
  | nil => rfl
  | cons c cs ih => rw [stancesList, ih, List.flatMap_cons]

@[simp] theorem stances_negation (favour : Bool) (c : Condition) :
    (negation c).stances favour = c.stances (!favour) := rfl

@[simp] theorem stances_atLeast (favour : Bool) (k : Nat) (cs : List Condition) :
    (atLeast k cs).stances favour = cs.flatMap (stances favour) :=
      stancesList_eq favour cs

/-- Every comparison has one stance. -/
theorem map_fst_stances (c : Condition) :
    ∀ favour, (c.stances favour).map (·.1) = c.leaves := by
  induction c using Condition.induction with
  | compare c =>
      intro favour
      rfl
  | negation c ih =>
      intro favour
      rw [stances_negation, leaves_negation, ih]
  | atLeast k cs ih =>
      intro favour
      rw [stances_atLeast, leaves_atLeast, List.map_flatMap]
      exact List.flatMap_congr fun c hc => ih c hc favour

/-- With these values every comparison has the answer that it is to have. -/
def Meets (values : String → String) (stances : List (Comparison × Bool)) : Prop :=
  ∀ stance ∈ stances,
    stance.1.relation.holds (values stance.1.name) stance.1.value = stance.2

/-- A plain comparison may be given either answer. -/
theorem exists_answer {c : Comparison} (hplain : c.isPlain = true) (answer : Bool) :
    ∃ value, isVariable value = false ∧ c.relation.holds value c.value = answer := by
  obtain ⟨hrelation, -, hvalue⟩ := Comparison.isPlain_iff.1 hplain
  rw [hrelation]
  cases answer with
  | true => exact ⟨c.value, hvalue, Relation.holds_eq_iff.2 rfl⟩
  | false =>
      obtain ⟨other, hother, hne⟩ : ∃ other, isVariable other = false ∧
          other ≠ c.value := by
        by_cases hempty : c.value = ""
        · exact ⟨undefinedValue, Facts.isVariable_undefinedValue, by
            rw [hempty]; decide⟩
        · exact ⟨"", by decide, Ne.symm hempty⟩
      exact ⟨other, hother, by simpa [Relation.holds] using hne⟩

/-- Plain comparisons of different facts may be given any answers. -/
theorem exists_meets {stances : List (Comparison × Bool)}
    (hplain : ∀ stance ∈ stances, stance.1.isPlain = true)
    (hdistinct : (stances.map (·.1.name)).Nodup) :
    ∃ values, (∀ fact, isVariable (values fact) = false) ∧ Meets values stances := by
  induction stances with
  | nil =>
      exact ⟨fun _ => undefinedValue, fun _ => Facts.isVariable_undefinedValue, nofun⟩
  | cons first stances ih =>
      obtain ⟨hnew, hdistinct⟩ := List.nodup_cons.1 hdistinct
      obtain ⟨values, hvalues, hmeets⟩ :=
        ih (fun stance hmem => hplain stance (List.mem_cons_of_mem _ hmem)) hdistinct
      obtain ⟨value, hvalue, hanswer⟩ :=
        exists_answer (hplain first List.mem_cons_self) first.2
      refine ⟨Function.update values first.1.name value, fun fact => ?_,
        fun stance hmem => ?_⟩
      · by_cases hfact : fact = first.1.name
        · rw [hfact, Function.update_self]
          exact hvalue
        · rw [Function.update_of_ne hfact]
          exact hvalues fact
      · rcases List.mem_cons.1 hmem with rfl | hmem
        · rw [Function.update_self]
          exact hanswer
        · -- No other comparison is about this fact.
          have hother : stance.1.name ≠ first.1.name := by
            intro heq
            exact hnew (List.mem_map.2 ⟨stance, hmem, heq⟩)
          rw [Function.update_of_ne hother]
          exact hmeets stance hmem

/-! ## How a condition turns out -/

variable {facts : Facts}

/-- In a plain condition an undecided comparison misses the fact that it names. -/
theorem eq_missing_name (hfacts : facts.Literal) {c : Comparison}
    (hc : (compare c).Plain) {f : Finding} (hf : (compare c).evaluate facts = .ok f)
    (hmaybe : f.verdict = .maybe) :
    f = .missing c.name ∧ facts.get? c.name = none := by
  obtain ⟨fact, rfl⟩ := (evaluate_compare_eq_ok_iff.1 hf).eq_missing hmaybe
  have hawaits := Finding.awaits_missing_iff.2 (rfl : fact = fact)
  obtain ⟨leaf, hleaf, rfl⟩ := mem_facts.1 (mem_facts_of_awaits hfacts hc hf hawaits)
  obtain rfl := List.mem_singleton.1 hleaf
  exact ⟨rfl, (compare leaf).get?_of_awaits hf hawaits⟩

/-- When the facts that an undecided condition awaits have values that
favour it, or do not, it turns out accordingly.  A condition that was not
undecided stays as it was. -/
theorem judge_supposing {values : String → String}
    (hvalues : ∀ fact, isVariable (values fact) = false) {names : List String}
    (hfacts : facts.Literal) (c : Condition) :
    ∀ {favour : Bool}, c.Plain → Meets values (c.stances favour) →
      (∀ f, c.evaluate facts = .ok f → f.verdict = .maybe → ∀ fact, f.Awaits fact →
        fact ∈ names) →
      c.judge (facts.supposing values names) =
        (c.judge facts).map (.resolved favour) := by
  have hmore := (facts.keeps_supposing values names).extends
  have hliteral := hfacts.supposing hvalues names
  -- A settled verdict is found again, since nothing is circular.
  have hsettled {c : Condition} (favour : Bool) {f : Finding} (hc : c.Plain)
      (hf : c.evaluate facts = .ok f) (hf' : f.verdict ≠ .maybe) :
      c.judge (facts.supposing values names) =
          (c.judge facts).map (.resolved favour) := by
    obtain ⟨f', heval⟩ := exists_evaluate hliteral c hc
    have hsame := c.verdict_of_extends hmore hf hf' heval
    simp [judge, hf, heval, Except.map, hsame, Verdict.resolved_of_ne_maybe favour hf']
  induction c using Condition.induction with
  | compare c =>
      intro favour hc hmeets hnames
      obtain ⟨f, hf⟩ := exists_evaluate hfacts (compare c) hc
      by_cases hmaybe : f.verdict = .maybe
      · obtain ⟨rfl, hnone⟩ := eq_missing_name hfacts hc hf hmaybe
        obtain ⟨hname, hvalue⟩ := hc c List.mem_cons_self
        have hmem := hnames _ hf hmaybe c.name (Finding.awaits_missing_iff.2 rfl)
        have hget : (facts.supposing values names).get? c.name =
            some ⟨values c.name, .given "Supposed"⟩ := by
          rw [Facts.get?_supposing, hnone, Option.none_or, if_pos hmem]
        have heval := evaluate_compare_eq_ok_iff.2 (.settled
          (Facts.resolve_of_not_isVariable _ hname) hget
          (Facts.resolve_of_not_isVariable _ (hvalues c.name))
          (Facts.resolve_of_not_isVariable _ hvalue))
        have hanswer := hmeets (c, favour) List.mem_cons_self
        dsimp only at hanswer
        rw [judge, judge, hf, heval, hanswer]
        rfl
      · exact hsettled favour hc hf hmaybe
  | negation c ih =>
      intro favour hc hmeets hnames
      have hpart := ih hc hmeets fun part hpart hopen fact hawaits =>
        hnames _ (evaluate_negation_eq_ok_iff.2 ⟨part, hpart, rfl⟩)
          (Finding.verdict_negate_eq_maybe_iff.2 hopen) fact
          (Finding.awaits_negate_iff.2 ⟨hopen, hawaits⟩)
      rw [judge_negation, judge_negation, hpart]
      cases c.judge facts with
      | error fault => rfl
      | ok v => exact congrArg Except.ok (Verdict.flip_resolved favour v)
  | atLeast k cs ih =>
      intro favour hc hmeets hnames
      obtain ⟨f, hf⟩ := exists_evaluate hfacts (atLeast k cs) hc
      by_cases hmaybe : f.verdict = .maybe
      · obtain ⟨parts, hparts, rfl⟩ := evaluate_atLeast_eq_ok_iff.1 hf
        have hmembers : ∀ c ∈ cs, c.judge (facts.supposing values names) =
            (c.judge facts).map (.resolved favour) := by
          intro c hmem
          refine ih c hmem
            (fun leaf hleaf => hc leaf (mem_leaves_atLeast.2 ⟨c, hmem, hleaf⟩))
            (fun stance hstance => hmeets stance ?_)
            fun part hpart hopen fact hawaits => ?_
          · rw [stances_atLeast]
            exact List.mem_flatMap_of_mem hmem hstance
          · have hpart := mem_of_forall₂_evaluate hparts hmem hpart
            exact hnames _ hf hmaybe fact
              ((Finding.awaits_ofGroup_iff hmaybe).2 ⟨part, hpart, hopen, hawaits⟩)
        rw [judge_atLeast, judge_atLeast, List.map_congr_left hmembers,
          ← Judgement.atLeast_resolved, List.map_map]
        rfl
      · exact hsettled favour hc hf hmaybe

/-- All comparisons are plain, and no two of them are about the same fact. -/
structure ReadsOnce (c : Condition) : Prop where
  plain : ∀ leaf ∈ c.leaves, leaf.isPlain = true
  distinct : (c.leaves.map (·.name)).Nodup

instance (c : Condition) : Decidable c.ReadsOnce :=
  decidable_of_iff ((∀ leaf ∈ c.leaves, leaf.isPlain = true) ∧
    (c.leaves.map (·.name)).Nodup)
    ⟨fun h => ⟨h.1, h.2⟩, fun h => ⟨h.plain, h.distinct⟩⟩

/-- There are values that favour the condition, and values that do not. -/
theorem ReadsOnce.exists_meets {c : Condition} (h : c.ReadsOnce) (favour : Bool) :
    ∃ values, (∀ fact, isVariable (values fact) = false) ∧
      Meets values (c.stances favour) := by
  have hleaves := c.map_fst_stances favour
  refine Condition.exists_meets (fun stance hmem => h.plain stance.1 ?_) ?_
  · rw [← hleaves]
    exact List.mem_map_of_mem hmem
  · have hdistinct := h.distinct
    rw [← hleaves, List.map_map] at hdistinct
    exact hdistinct

end Condition

/-- `facts'.Learns facts names`: more is recorded, but only of what is listed. -/
structure Facts.Learns (facts' facts : Facts) (names : List String) : Prop where
  keeps : facts'.Keeps facts
  only : ∀ fact ∉ names, facts'.get? fact = facts.get? fact

theorem Facts.learns_supposing (facts : Facts) (values : String → String)
    (names : List String) :
    (facts.supposing values names).Learns facts names where
  keeps := facts.keeps_supposing values names
  only fact hfact := by rw [get?_supposing, if_neg hfact, Option.or_none]

/-- An undecided condition that reads each fact once, and nothing but literals,
depends on what it waits for: the facts that it lists may turn out such that it holds,
and also such that it does not hold. -/
theorem undecided_goes_either_way {c : Condition} (hc : c.ReadsOnce) {facts : Facts}
    (hfacts : facts.Literal) {f : Finding} (heval : c.evaluate facts = .ok f)
    (hmaybe : f.verdict = .maybe) :
    (∃ facts' : Facts, facts'.Learns facts f.unknownFacts ∧ c.Finds facts' .yes) ∧
      ∃ facts' : Facts, facts'.Learns facts f.unknownFacts ∧ c.Finds facts' .no := by
  have hplain : c.Plain :=
    fun leaf hleaf => (Comparison.isPlain_iff.1 (hc.plain leaf hleaf)).2
  have hturns (favour : Bool) : ∃ facts' : Facts, facts'.Learns facts f.unknownFacts ∧
      c.Finds facts' (Verdict.maybe.resolved favour) := by
    obtain ⟨values, hvalues, hmeets⟩ := hc.exists_meets favour
    refine ⟨_, facts.learns_supposing values f.unknownFacts,
      Condition.finds_iff_judge.2 ?_⟩
    have hnames : ∀ f', c.evaluate facts = .ok f' → f'.verdict = .maybe →
        ∀ fact, f'.Awaits fact → fact ∈ f.unknownFacts := by
      intro f' hf' _ fact hawaits
      obtain rfl := Except.ok.inj (heval.symm.trans hf')
      exact Finding.mem_unknownFacts.2 hawaits
    rw [c.judge_supposing hvalues hfacts hplain hmeets hnames, Condition.judge,
      heval, ← hmaybe]
    rfl
  exact ⟨hturns true, hturns false⟩

/-- Two of these three: the lamp is green, the gate is not down, and there is a guard
or else a telephone that is not dead. -/
def bridgeOpen : Condition :=
  .atLeast 2
    [.equals "lamp" "green", .negation (.equals "gate" "down"),
      .any [.equals "guard" "present", .negation (.equals "telephone" "dead")]]

/-- The lamp is green, and there is no guard. -/
def bridgeFacts : Facts :=
  Facts.initial.record ((KeyMap.empty.insert "lamp" "green").insert "guard" "absent")
    (.given "Seen")

/-- The bridge waits for the gate and the telephone. -/
def bridgeFinding : Finding :=
  .because .maybe [.finding (Finding.missing "gate").negate,
    .finding (.because .maybe [.finding (Finding.missing "telephone").negate])]

/-- The bridge may turn out open and may turn out closed, as the gate
and the telephone do. -/
theorem bridge_goes_either_way :
    bridgeOpen.ReadsOnce ∧ bridgeFacts.Literal ∧
      bridgeOpen.evaluate bridgeFacts = .ok bridgeFinding ∧
        bridgeFinding.verdict = .maybe ∧
      (∀ fact, fact ∈ bridgeFinding.unknownFacts ↔ fact = "gate" ∨ fact = "telephone") ∧
      (∃ facts' : Facts, facts'.Learns bridgeFacts bridgeFinding.unknownFacts ∧
        bridgeOpen.Finds facts' .yes) ∧
      ∃ facts' : Facts, facts'.Learns bridgeFacts bridgeFinding.unknownFacts ∧
        bridgeOpen.Finds facts' .no := by
  have hreads : bridgeOpen.ReadsOnce := by decide
  have hliteral : bridgeFacts.Literal := Facts.literal_initial.record _ (by decide)
  have heval : bridgeOpen.evaluate bridgeFacts = .ok bridgeFinding := rfl
  refine ⟨hreads, hliteral, heval, rfl, fun fact => ?_,
    undecided_goes_either_way hreads hliteral heval rfl⟩
  rw [Finding.mem_unknownFacts]
  simp [bridgeFinding, Finding.awaits_because_iff, Ground.Awaits, Finding.missing,
    Finding.negate, Verdict.flip]

end Consult
