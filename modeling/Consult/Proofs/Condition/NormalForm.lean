import Consult.Proofs.Condition.Simplify
import Mathlib.Data.List.Nodup

/-!
# Normal forms

`Normal` says what there is not in a simplified condition.  Simplifying goes over a
condition once, from the inside to the outside, and every step of it could give
occasion to another.  That there is nothing left to do after one pass has the
following reasons.  The members of a nested group that is merged are not groups of
that kind themselves, as the nested group is in normal form.  And the common
alternatives that a conjunction is replaced by are a disjunction of distinct tests,
which the group around it finds in normal form.

## Main results

* `Reduces.normal` — what a group of normal members is simplified to is normal.
* `simplify_of_normal` — normal forms are left alone.
* `simplify_normalizes` — simplifying leads to a normal form, and a
  second pass changes nothing.
-/

namespace Consult

/-! ## Leaving out repetitions -/

theorem nodup_eraseDups {α : Type} [BEq α] [LawfulBEq α] (as : List α) :
    as.eraseDups.Nodup := by
  induction as using eraseDups_induction with
  | nil => exact List.nodup_nil
  | cons a as ih =>
      rw [List.eraseDups_cons, List.nodup_cons]
      exact ⟨by simp, ih⟩

theorem eraseDups_of_nodup {α : Type} [BEq α] [LawfulBEq α] {as : List α}
    (h : as.Nodup) :
    as.eraseDups = as := by
  induction as with
  | nil => rfl
  | cons a as ih =>
      obtain ⟨hnotMem, hnodup⟩ := List.nodup_cons.1 h
      have hkept : as.filter (fun b => !b == a) = as :=
        List.filter_eq_self.2 fun b hb => by
          simpa using fun heq : b = a => hnotMem (heq ▸ hb)
      rw [List.eraseDups_cons, hkept, ih hnodup]

namespace Condition

variable {every : Bool} {c d : Condition} {cs : List Condition}

/-- Conditions in which nothing is left to simplify. -/
inductive Normal : Condition → Prop where
  | compare (c : Comparison) : Normal (.compare c)
  | negation {c : Condition} (hc : c.Normal) (hsingle : ∀ d, c ≠ .negation d) :
      Normal (.negation c)
  /-- A group that is neither a conjunction nor a disjunction. -/
  | counting {k : Nat} {cs : List Condition} (hcs : ∀ c ∈ cs, c.Normal)
      (hall : k ≠ cs.length)
      (hany : k ≠ 1) : Normal (.atLeast k cs)
  /-- A conjunction or a disjunction has no member of the same kind, not just
  one member, and none twice. The members of a conjunction are not alternatives
  with values in common. -/
  | joined (every : Bool) {cs : List Condition} (hcs : ∀ c ∈ cs, c.Normal)
      (hnested : ∀ c ∈ cs, c.isJoined every = false) (hlength : cs.length ≠ 1)
      (hnodup : cs.Nodup) (hcommon : every = true → intersection? cs = none) :
      Normal (joined every cs)

/-! ## Normal forms are left alone -/

theorem membersOf_of_not_isJoined (h : c.isJoined every = false) :
    membersOf every c = [c] := by
  rcases membersOf_cases every c with ⟨cs, rfl, -⟩ | ⟨-, hmembers⟩
  · rw [isJoined_iff.2 ⟨cs, rfl⟩] at h
    cases h
  · exact hmembers

theorem merged_of_not_isJoined (hnested : ∀ c ∈ cs, c.isJoined every = false)
    (hnodup : cs.Nodup) : merged every cs = cs := by
  have hmembers : cs.flatMap (membersOf every) = cs := by
    rw [List.flatMap_congr fun c hc => membersOf_of_not_isJoined (hnested c hc)]
    simp
  rw [merged, hmembers, eraseDups_of_nodup hnodup]

theorem simplifyGroup_of_counting {k : Nat} (hall : k ≠ cs.length) (hany : k ≠ 1) :
    simplifyGroup k cs = atLeast k cs :=
  if_pos (by simp [hall, hany])

theorem simplifyGroup_of_length_ne_one {k : Nat} (hjoined : k = cs.length ∨ k = 1)
    (hlength : cs.length ≠ 1) :
    simplifyGroup k cs = simplifyJoined (k = cs.length) cs := by
  rw [simplifyGroup, if_neg (by simp; tauto)]
  rintro c - rfl
  exact hlength rfl

theorem simplify_joined (every : Bool) (hlength : cs.length ≠ 1) :
    (joined every cs).simplify = simplifyJoined every (cs.map simplify) := by
  have hmap : (cs.map simplify).length ≠ 1 := by rwa [List.length_map]
  cases every with
  | false =>
      have hsimplify := simplifyGroup_of_length_ne_one (.inr rfl) hmap
      simpa [joined, any, hlength.symm] using hsimplify
  | true =>
      have hsimplify := simplifyGroup_of_length_ne_one (.inl rfl) hmap
      simpa [joined, all] using hsimplify

theorem simplifyJoined_of_merged_eq {ds : List Condition}
    (hmerged : merged every cs = ds) (hlength : ds.length ≠ 1) :
    simplifyJoined every cs =
      if every then (intersection? ds).getD (all ds) else any ds := by
  unfold simplifyJoined
  rw [hmerged]
  split
  · exact absurd rfl hlength
  · rfl

/-- Normal forms are left alone. -/
theorem simplify_of_normal (h : c.Normal) : c.simplify = c := by
  induction h with
  | compare c => rfl
  | @negation c _ hsingle ih =>
      rcases simplify_negation_cases c with ⟨d, hd, -⟩ | ⟨-, hc⟩
      · exact absurd (ih.symm.trans hd) (hsingle d)
      · rw [hc, ih]
  | @counting k cs _ hall hany ih =>
      rw [simplify_atLeast, List.map_congr_left ih, List.map_id',
        simplifyGroup_of_counting hall hany]
  | @joined every cs _ hnested hlength hnodup hcommon ih =>
      rw [simplify_joined every hlength, List.map_congr_left ih, List.map_id',
        simplifyJoined_of_merged_eq (merged_of_not_isJoined hnested hnodup) hlength]
      cases every with
      | false => rfl
      | true => simp [hcommon rfl, Condition.joined]

/-! ## Simplifying leads to a normal form -/

/-- Of what kind a group is can be seen from it, unless it has just one member. -/
theorem joined_inj {every' : Bool} {cs' : List Condition}
    (h : joined every cs = joined every' cs') (hlength : cs'.length ≠ 1) :
    every = every' ∧ cs = cs' := by
  rw [joined_eq, joined_eq] at h
  obtain ⟨hk, rfl⟩ := Condition.atLeast.inj h
  refine ⟨?_, rfl⟩
  cases every <;> cases every' <;> simp_all

theorem normal_joined_iff : (joined every cs).Normal ↔
    (∀ c ∈ cs, c.Normal ∧ c.isJoined every = false) ∧ cs.length ≠ 1 ∧ cs.Nodup ∧
      (every = true → intersection? cs = none) := by
  constructor
  · intro h
    generalize hgroup : joined every cs = g at h
    cases h with
    | compare c => cases every <;> cases hgroup
    | negation _ _ => cases every <;> cases hgroup
    | @counting k cs' _ hall hany =>
        rw [joined_eq] at hgroup
        obtain ⟨rfl, rfl⟩ := Condition.atLeast.inj hgroup
        cases every with
        | false => exact absurd rfl hany
        | true => exact absurd rfl hall
    | joined every' hcs hnested hlength hnodup hcommon =>
        obtain ⟨rfl, rfl⟩ := joined_inj hgroup hlength
        exact ⟨fun c hc => ⟨hcs c hc, hnested c hc⟩, hlength, hnodup, hcommon⟩
  · rintro ⟨hcs, hlength, hnodup, hcommon⟩
    exact .joined every (fun c hc => (hcs c hc).1)
      (fun c hc => (hcs c hc).2) hlength hnodup hcommon

theorem Normal.of_negation (h : (Condition.negation c).Normal) : c.Normal := by
  generalize hnegation : Condition.negation c = d at h
  cases h with
  | compare c => cases hnegation
  | negation hc _ =>
      cases hnegation
      exact hc
  | counting _ _ _ => cases hnegation
  | joined every _ _ _ _ _ => cases every <;> cases hnegation

/-- The members of a merged group are in normal form and not groups of its kind. -/
theorem normal_of_merged (hcs : ∀ c ∈ cs, c.Normal) :
    ∀ d ∈ merged every cs, d.Normal ∧ d.isJoined every = false := by
  intro d hd
  obtain ⟨c, hc, hd⟩ := mem_merged.1 hd
  rcases membersOf_cases every c with ⟨ds, rfl, hmembers⟩ | ⟨hkind, hmembers⟩
  · exact (normal_joined_iff.1 (hcs _ hc)).1 d (hmembers ▸ hd)
  · rw [hmembers, List.mem_singleton] at hd
    exact hd ▸ ⟨hcs c hc, hkind⟩

theorem nodup_of_alternatives {name : String} {values : List String} (h : c.Normal)
    (halternatives : alternatives? c = some (name, values)) : values.Nodup := by
  obtain ⟨-, rfl | ⟨value, rfl, -⟩⟩ := alternatives?_eq_some_iff.1 halternatives
  · have h : (joined false (values.map (test name))).Normal := h
    obtain ⟨-, -, hnodup, -⟩ := normal_joined_iff.1 h
    exact hnodup.of_map
  · exact List.nodup_singleton value

theorem normal_oneOf {name : String} {values : List String} (hname : Text.Trimmed name)
    (hvalues : ∀ value ∈ values, Text.Trimmed value) (hnodup : values.Nodup) :
    (oneOf name values).Normal := by
  rcases oneOf_cases name values with ⟨value, -, heq⟩ | ⟨hlength, heq⟩
  · exact heq ▸ .compare _
  · rw [heq, map_equals hname hvalues]
    show (joined false _).Normal
    refine normal_joined_iff.2 ⟨?_, ?_, hnodup.map (test_injective name), nofun⟩
    · rw [List.forall_mem_map]
      exact fun value _ => ⟨.compare _, rfl⟩
    · rwa [List.length_map]

/-- What a group of normal members is simplified to is normal. -/
theorem Reduces.normal {k : Nat} (h : Reduces k cs d) (htrimmed : ∀ c ∈ cs, c.Trimmed)
    (hcs : ∀ c ∈ cs, c.Normal) : d.Normal := by
  cases h with
  | counting hall hany => exact .counting hcs hall hany
  | single hgroup =>
      obtain ⟨-, rfl⟩ := Condition.atLeast.inj hgroup
      exact hcs d (List.mem_singleton_self d)
  | collapsed every _ hmerged =>
      have hmem : d ∈ Condition.merged every cs := hmerged ▸ List.mem_singleton_self d
      exact (normal_of_merged hcs d hmem).1
  | common _ hinter =>
      obtain ⟨first, rest, name, values, common, hmerged, hfirst, hcommon, -, rfl⟩ :=
        intersection?_eq_some hinter
      have hmem : first ∈ Condition.merged true cs := hmerged ▸ List.mem_cons_self
      obtain ⟨hname, hvalues⟩ :=
        trimmed_of_alternatives hfirst (trimmed_of_merged htrimmed first hmem)
      have hnodup := nodup_of_alternatives (normal_of_merged hcs first hmem).1 hfirst
      have hsublist := sublist_of_commonValues hcommon
      exact normal_oneOf hname
        (fun value hvalue => hvalues value (hsublist.subset hvalue))
        (hnodup.sublist hsublist)
  | merged every _ hlength hcommon =>
      exact normal_joined_iff.2
        ⟨normal_of_merged hcs, hlength, nodup_eraseDups _, hcommon⟩

theorem normal_simplify (c : Condition) (htrimmed : c.Trimmed) : c.simplify.Normal := by
  induction c using Condition.induction with
  | compare c => exact .compare c
  | negation c ih =>
      have hnormal := ih (trimmed_negation.1 htrimmed)
      rcases simplify_negation_cases c with ⟨d, hc, hd⟩ | ⟨hsingle, hc⟩
      · rw [hc] at hnormal
        exact hd ▸ hnormal.of_negation
      · exact hc ▸ .negation hnormal hsingle
  | atLeast k cs ih =>
      have htrimmed := trimmed_atLeast.1 htrimmed
      rw [simplify_atLeast]
      refine (simplifyGroup_cases _ _).normal ?_ ?_
      · exact List.forall_mem_map.2 fun c hc => trimmed_simplify (htrimmed c hc)
      · exact List.forall_mem_map.2 fun c hc => ih c hc (htrimmed c hc)

/-- A condition without blanks around its texts is left alone if and only if
it is in normal form. -/
theorem simplify_eq_self_iff (htrimmed : c.Trimmed) : c.simplify = c ↔ c.Normal :=
  ⟨fun h => h ▸ normal_simplify c htrimmed, simplify_of_normal⟩

/-- Simplifying once leads to a normal form, in which there is nothing left to
simplify. -/
theorem simplify_normalizes (c : Condition) (htrimmed : c.Trimmed) :
    c.simplify.Normal ∧ c.simplify.simplify = c.simplify :=
  ⟨normal_simplify c htrimmed, simplify_of_normal (normal_simplify c htrimmed)⟩

/-- What was said in few words cannot be said in fewer, by the same means. -/
theorem crossing_in_short_normal :
    crossing.Trimmed ∧ crossing.simplify = crossingInShort ∧ crossingInShort.Normal ∧
      crossingInShort.simplify = crossingInShort := by
  have hnormal := simplify_normalizes crossing trimmed_crossing
  rw [simplify_crossing] at hnormal
  exact ⟨trimmed_crossing, simplify_crossing, hnormal⟩

end Condition

end Consult
