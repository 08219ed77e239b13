import Consult.Proofs.Condition.Alternatives

/-!
# Simplifying keeps the meaning

A group is simplified in one of five ways, which `Reduces` lists.  None of them
changes what its members come to together: nested groups of its kind may be
replaced by their members, repetitions may be left out, and alternatives for one
fact may be replaced by those that they have in common.  The first fault that is
met stays the first one, since what is left keeps its order.

The texts of the common alternatives are trimmed once more.  So this is about
conditions whose texts have no blanks around them, and it has to be known that
simplifying adds no other texts: a comparison is taken over as it is, or it is a
plain test that has lost its blanks (`Strips`).

## Main results

* `simplifyGroup_cases` — how a group is simplified.
* `judge_merged` — merging nested groups changes no judgement.
* `leaves_simplify` — simplifying adds no comparisons, blanks aside.
* `simplify_keeps_meaning` — the same faults and verdicts, whatever the facts.
-/

namespace Consult.Condition

variable {every : Bool} {c d : Condition} {cs : List Condition} {l : Comparison}
    {facts : Facts}

/-! ## Merging -/

theorem isJoined_iff : c.isJoined every = true ↔ ∃ cs, c = joined every cs := by
  cases c with
  | compare c => cases every <;> simp [isJoined, isAll, isAny, joined, all, any]
  | negation c => cases every <;> simp [isJoined, isAll, isAny, joined, all, any]
  | atLeast k cs => cases every <;> simp [isJoined, isAll, isAny, joined, all, any]

/-- What a condition contributes to a group: the members of a group of the
same kind, or itself. -/
theorem membersOf_cases (every : Bool) (c : Condition) :
    (∃ cs, c = joined every cs ∧ membersOf every c = cs) ∨
      c.isJoined every = false ∧ membersOf every c = [c] := by
  by_cases hjoined : c.isJoined every = true
  · obtain ⟨cs, rfl⟩ := isJoined_iff.1 hjoined
    refine .inl ⟨cs, rfl, ?_⟩
    rw [joined_eq] at hjoined ⊢
    exact if_pos hjoined
  · refine .inr ⟨by simpa using hjoined, ?_⟩
    cases c with
    | compare c => rfl
    | negation c => rfl
    | atLeast k cs => exact if_neg hjoined

theorem mem_merged : d ∈ merged every cs ↔ ∃ c ∈ cs, d ∈ membersOf every c := by
  simp [merged]

theorem mem_leaves_of_membersOf (hd : d ∈ membersOf every c) (hl : l ∈ d.leaves) :
    l ∈ c.leaves := by
  rcases membersOf_cases every c with ⟨cs, rfl, hmembers⟩ | ⟨-, hmembers⟩
  · rw [joined_eq, mem_leaves_atLeast]
    exact ⟨d, hmembers ▸ hd, hl⟩
  · rw [hmembers, List.mem_singleton] at hd
    exact hd ▸ hl

/-- Merging adds no comparisons. -/
theorem mem_leaves_of_merged (hd : d ∈ merged every cs) (hl : l ∈ d.leaves) :
    ∃ c ∈ cs, l ∈ c.leaves := by
  obtain ⟨c, hc, hd⟩ := mem_merged.1 hd
  exact ⟨c, hc, mem_leaves_of_membersOf hd hl⟩

theorem trimmed_of_merged (htrimmed : ∀ c ∈ cs, c.Trimmed) :
    ∀ d ∈ merged every cs, d.Trimmed := by
  intro d hd l hl
  obtain ⟨c, hc, hl⟩ := mem_leaves_of_merged hd hl
  exact htrimmed c hc l hl

/-- Nested groups are merged, and repetitions left out, without a
change of the judgement. -/
theorem judge_merged (facts : Facts) (every : Bool) (cs : List Condition) :
    Judgement.join every ((merged every cs).map (judge facts)) =
      Judgement.join every (cs.map (judge facts)) := by
  rw [merged, Judgement.join_map_eraseDups]
  refine Judgement.join_flatMap every (judge facts) fun c _ => ?_
  rcases membersOf_cases every c with ⟨ds, rfl, hmembers⟩ | ⟨-, hmembers⟩
  · rw [hmembers, judge_joined]
  · rw [hmembers, List.map_singleton, Judgement.join_cons]
    exact Judgement.combine_vacuous every _

/-! ## Losing blanks -/

/-- The comparison is what is left of a plain test in the condition when the blanks
around its texts are taken away. -/
def Strips (c : Condition) (l : Comparison) : Prop :=
  ∃ test ∈ c.leaves, test.isPlain = true ∧ ¬test.Trimmed ∧
    l = .ofTrimmed test.name .eq test.value

theorem Strips.trimmed (h : c.Strips l) : l.Trimmed := by
  obtain ⟨test, -, -, -, rfl⟩ := h
  exact ⟨Text.trimmed_trim _, Text.trimmed_trim _⟩

theorem Strips.of_member {k : Nat} (hc : c ∈ cs) (h : c.Strips l) :
    (atLeast k cs).Strips l := by
  obtain ⟨test, htest, hstripped⟩ := h
  exact ⟨test, mem_leaves_atLeast.2 ⟨c, hc, htest⟩, hstripped⟩

theorem Trimmed.not_strips (htrimmed : c.Trimmed) : ¬c.Strips l := by
  rintro ⟨test, htest, -, hblanks, -⟩
  exact hblanks (htrimmed test htest)

/-! ## Simplifying a group -/

/-- What a group of simple members is simplified to. -/
inductive Reduces (k : Nat) (cs : List Condition) : Condition → Prop where
  /-- It is neither a conjunction nor a disjunction. -/
  | counting (hall : k ≠ cs.length) (hany : k ≠ 1) : Reduces k cs (.atLeast k cs)
  /-- It has just one member. -/
  | single {c : Condition} (hgroup : atLeast k cs = any [c]) : Reduces k cs c
  /-- Just one member is left. -/
  | collapsed (every : Bool) {c : Condition} (hgroup : atLeast k cs = joined every cs)
      (hmerged : merged every cs = [c]) : Reduces k cs c
  /-- The members are alternatives for one fact. -/
  | common {c : Condition} (hgroup : atLeast k cs = all cs)
      (hcommon : intersection? (merged true cs) = some c) : Reduces k cs c
  /-- Nothing else is left to do. -/
  | merged (every : Bool) (hgroup : atLeast k cs = joined every cs)
      (hlength : (merged every cs).length ≠ 1)
      (hcommon : every = true → intersection? (merged every cs) = none) :
      Reduces k cs (joined every (merged every cs))

private theorem reduces_simplifyJoined {k : Nat}
    (hgroup : atLeast k cs = joined every cs) :
    Reduces k cs (simplifyJoined every cs) := by
  unfold simplifyJoined
  split
  · next c hmerged => exact .collapsed every hgroup hmerged
  · next hmerged =>
    have hlength : (Condition.merged every cs).length ≠ 1 := by
      rw [Ne, List.length_eq_one_iff]
      rintro ⟨c, hc⟩
      exact hmerged c hc
    cases every with
    | false => exact .merged false hgroup hlength nofun
    | true =>
        cases hcommon : intersection? (Condition.merged true cs) with
        | some c => exact .common hgroup hcommon
        | none => exact .merged true hgroup hlength fun _ => hcommon

theorem simplifyGroup_cases (k : Nat) (cs : List Condition) :
    Reduces k cs (simplifyGroup k cs) := by
  unfold simplifyGroup
  split
  · next hcounting =>
    simp only [Bool.and_eq_true, decide_eq_true_eq] at hcounting
    exact .counting hcounting.1 hcounting.2
  · next hjoined =>
    split
    · exact .single rfl
    · refine reduces_simplifyJoined ?_
      rw [joined_eq]
      by_cases hall : k = cs.length
      · simp [hall]
      · have hany : k = 1 := by simpa [hall] using hjoined
        simp [hany]

namespace Reduces

variable {k : Nat}

/-- Simplifying a group adds no comparisons, but it may strip some of blanks. -/
theorem mem_leaves (h : Reduces k cs d) (hl : l ∈ d.leaves) :
    ∃ c ∈ cs, l ∈ c.leaves ∨ c.Strips l := by
  cases h with
  | counting _ _ =>
      obtain ⟨c, hc, hl⟩ := mem_leaves_atLeast.1 hl
      exact ⟨c, hc, .inl hl⟩
  | single hgroup =>
      obtain ⟨-, rfl⟩ := Condition.atLeast.inj hgroup
      exact ⟨d, List.mem_singleton_self d, .inl hl⟩
  | collapsed every _ hmerged =>
      have hmem : d ∈ Condition.merged every cs := hmerged ▸ List.mem_singleton_self d
      obtain ⟨c, hc, hl⟩ := mem_leaves_of_merged hmem hl
      exact ⟨c, hc, .inl hl⟩
  | common _ hcommon =>
      obtain ⟨first, rest, name, values, common, hmerged, hfirst, hvalues, -, rfl⟩ :=
        intersection?_eq_some hcommon
      obtain ⟨value, hvalue, rfl⟩ := mem_leaves_oneOf.1 hl
      have hvalue : value ∈ values := (sublist_of_commonValues hvalues).subset hvalue
      -- The comparison has been put together anew from this one.
      have htest : ⟨name, value, .eq⟩ ∈ first.leaves :=
        (mem_leaves_of_alternatives hfirst).2 ⟨value, hvalue, rfl⟩
      obtain ⟨c, hc, hmem⟩ := mem_leaves_of_merged (hmerged ▸ List.mem_cons_self) htest
      have hchoice := (alternatives?_eq_some_iff.1 hfirst).1
      have hplain : Comparison.isPlain ⟨name, value, .eq⟩ = true := by
        simp [Comparison.isPlain, hchoice.fact, hchoice.literal value hvalue]
      by_cases htrimmed : Comparison.Trimmed ⟨name, value, .eq⟩
      · exact ⟨c, hc, .inl (htrimmed.ofTrimmed_eq ▸ hmem)⟩
      · exact ⟨c, hc, .inr ⟨_, hmem, hplain, htrimmed, rfl⟩⟩
  | merged every _ _ _ =>
      rw [joined_eq] at hl
      obtain ⟨e, he, hl⟩ := mem_leaves_atLeast.1 hl
      obtain ⟨c, hc, hl⟩ := mem_leaves_of_merged he hl
      exact ⟨c, hc, .inl hl⟩

/-- Simplifying a group does not change how it is judged. -/
theorem judge_eq (h : Reduces k cs d) (htrimmed : ∀ c ∈ cs, c.Trimmed) (facts : Facts) :
    d.judge facts = (atLeast k cs).judge facts := by
  cases h with
  | counting _ _ => rfl
  | single hgroup =>
      rw [hgroup]
      exact ((judge_joined facts false [d]).trans
        (Judgement.combine_vacuous false _)).symm
  | collapsed every hgroup hmerged =>
      rw [hgroup, judge_joined, ← judge_merged, hmerged]
      exact (Judgement.combine_vacuous every _).symm
  | common hgroup hcommon =>
      rw [judge_of_intersection (trimmed_of_merged htrimmed) hcommon,
        judge_merged, hgroup]
      exact (judge_joined facts true cs).symm
  | merged every hgroup _ _ => rw [hgroup, judge_joined, judge_joined, judge_merged]

end Reduces

/-! ## Simplifying a condition -/

/-- Either the negations of a double negation cancel each other, or there is none. -/
theorem simplify_negation_cases (c : Condition) :
    (∃ d, c.simplify = negation d ∧ (negation c).simplify = d) ∨
      (∀ d, c.simplify ≠ negation d) ∧ (negation c).simplify = negation c.simplify := by
  rw [simplify]
  split
  · next d hd => exact .inl ⟨d, hd, rfl⟩
  · next hd => exact .inr ⟨hd, rfl⟩

/-- Simplifying adds no comparisons, but it may strip some of blanks. -/
theorem leaves_simplify (c : Condition) :
    ∀ l ∈ c.simplify.leaves, l ∈ c.leaves ∨ c.Strips l := by
  induction c using Condition.induction with
  | compare c => exact fun l hl => .inl hl
  | negation c ih =>
      intro l hl
      show l ∈ c.leaves ∨ c.Strips l
      apply ih
      rcases simplify_negation_cases c with ⟨d, hc, hd⟩ | ⟨-, hc⟩
      · rw [hc, leaves_negation, ← hd]
        exact hl
      · rwa [hc] at hl
  | atLeast k cs ih =>
      intro l hl
      rw [simplify_atLeast] at hl
      obtain ⟨_, hmem, hl⟩ := (simplifyGroup_cases _ _).mem_leaves hl
      obtain ⟨c, hc, rfl⟩ := List.mem_map.1 hmem
      have hfrom : l ∈ c.leaves ∨ c.Strips l := by
        rcases hl with hl | ⟨test, htest, hplain, hblanks, rfl⟩
        · exact ih c hc l hl
        · rcases ih c hc test htest with hold | hstripped
          · exact .inr ⟨test, hold, hplain, hblanks, rfl⟩
          · -- What has been stripped once has no blanks left.
            exact absurd hstripped.trimmed hblanks
      exact hfrom.imp (fun hl => mem_leaves_atLeast.2 ⟨c, hc, hl⟩) (Strips.of_member hc)

theorem trimmed_simplify (htrimmed : c.Trimmed) : c.simplify.Trimmed :=
  fun l hl => htrimmed l ((leaves_simplify c l hl).resolve_right htrimmed.not_strips)

/-- Simplifying does not change how a condition is judged. -/
theorem judge_simplify (facts : Facts) (c : Condition) (htrimmed : c.Trimmed) :
    c.simplify.judge facts = c.judge facts := by
  induction c using Condition.induction with
  | compare c => rfl
  | negation c ih =>
      have ih := ih (trimmed_negation.1 htrimmed)
      rcases simplify_negation_cases c with ⟨d, hc, hd⟩ | ⟨-, hc⟩
      · rw [hd, judge_negation, ← ih, hc, judge_negation, Judgement.map_flip_map_flip]
      · rw [hc, judge_negation, judge_negation, ih]
  | atLeast k cs ih =>
      have htrimmed := trimmed_atLeast.1 htrimmed
      have hsimple : ∀ c ∈ cs.map simplify, c.Trimmed :=
        List.forall_mem_map.2 fun c hc => trimmed_simplify (htrimmed c hc)
      have hmembers : (cs.map simplify).map (judge facts) = cs.map (judge facts) := by
        rw [List.map_map]
        exact List.map_congr_left fun c hc => ih c hc (htrimmed c hc)
      rw [simplify_atLeast, (simplifyGroup_cases _ _).judge_eq hsimple, judge_atLeast,
        judge_atLeast, hmembers]

/-- A condition and what it is simplified to have the same faults and the same
verdicts, whatever the thresholds of the groups and whatever the facts. -/
theorem simplify_keeps_meaning (c : Condition) (htrimmed : c.Trimmed) (facts : Facts) :
    (∀ fault, c.simplify.evaluate facts = .error fault ↔
      c.evaluate facts = .error fault) ∧
      ∀ f f', c.evaluate facts = .ok f → c.simplify.evaluate facts = .ok f' →
        f'.verdict = f.verdict := by
  refine evaluate_of_judge_eq (g := id) ?_
  rw [judge_simplify facts c htrimmed]
  cases c.judge facts <;> rfl

/-- When to slow down at a crossing, said in many words. -/
def crossing : Condition :=
  .any
    [.all [.any [.equals "light" "red", .equals "light" "green"],
        .negation
        (.negation (.any [.equals "light" "green", .equals "light" "yellow"]))],
      .any [.equals "barrier" "down", .any []],
      .negation (.all [.all [.compare ⟨"speed", "50", .gt⟩, .equals "barrier" "down"],
        .compare ⟨"speed", "50", .gt⟩, .all []]),
      .atLeast 3 [.equals "barrier" "down"]]

/-- The same in few words. -/
def crossingInShort : Condition :=
  .any
    [.equals "light" "green", .equals "barrier" "down",
      .negation (.all [.compare ⟨"speed", "50", .gt⟩, .equals "barrier" "down"]),
      .atLeast 3 [.equals "barrier" "down"]]

theorem trimmed_crossing : crossing.Trimmed := by decide

theorem simplify_crossing : crossing.simplify = crossingInShort := by decide

/-- The light and the speed are known, and the barrier has this value. -/
def crossingFacts (barrier : String) : Facts :=
  Facts.initial.record
    (((KeyMap.empty.insert "light" "yellow").insert "speed" "60").insert
      "barrier" barrier)
    (.given "Seen")

/-- Be the position of the barrier unknown or circular, both say the same. -/
theorem crossing_in_short_alike :
    crossing.Trimmed ∧ crossing.simplify = crossingInShort ∧
      (∃ f f', crossing.evaluate (crossingFacts "$guard") = .ok f ∧ f.verdict = .maybe ∧
        crossingInShort.evaluate (crossingFacts "$guard") = .ok f' ∧
          f'.verdict = .maybe) ∧
      crossingInShort.evaluate (crossingFacts "$barrier") =
        .error (.circular ["$barrier", "$barrier"]) := by
  have hunknown :=
    (simplify_keeps_meaning crossing trimmed_crossing (crossingFacts "$guard")).2
  have hcircular :=
    (simplify_keeps_meaning crossing trimmed_crossing (crossingFacts "$barrier")).1
  rw [simplify_crossing] at hunknown hcircular
  exact ⟨trimmed_crossing, simplify_crossing,
    ⟨_, _, rfl, rfl, rfl, hunknown _ _ rfl rfl⟩, (hcircular _).2 rfl⟩

end Consult.Condition
