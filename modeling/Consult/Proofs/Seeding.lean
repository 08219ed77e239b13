import Consult.Consultation
import Mathlib.Data.List.Basic

/-!
# How the agenda is seeded

A consultation is to pursue its goals in the order in which they are declared.
The agenda is therefore seeded from the last goal to the first: each goal goes
in front of what is there, and the facts that its answers refer to go in front
of the goal.  A name that is on the agenda stays where it is.

So the agenda holds the names in the opposite order of their first mention on
the way from the last goal to the first.  A goal that a later goal mentions as
well, in an answer or because it is declared twice, is put where the later goal
stands.  It may come to lie behind goals that are declared after it, and then
the order is lost.

## Main results

* `Stacks.pushNew` — what it means for the agenda that one more name is mentioned.
* `stacks_seed` — the agenda that is seeded holds what the goals
  mention, in the opposite order.
* `seeded_in_order_iff` — what is on the agenda, and when the goals keep their order.
* `not_always_seeded_in_order` — they do not keep it in general.
-/

namespace Consult

/-! ## Order of appearance -/

/-- Whether the first name turns up in a list before the second does. -/
def ComesFirst (a b : String) (names : List String) : Prop :=
  names.idxOf a < names.idxOf b

instance (a b : String) (names : List String) : Decidable (ComesFirst a b names) :=
  inferInstanceAs (Decidable (_ < _))

namespace ComesFirst

variable {a b name : String} {names more : List String}

theorem head (h : name ≠ b) : ComesFirst name b (name :: names) := by
  rw [ComesFirst, List.idxOf_cons_self, List.idxOf_cons_ne _ h]
  exact Nat.succ_pos _

theorem not_head : ¬ ComesFirst a name (name :: names) := by
  rw [ComesFirst, List.idxOf_cons_self]
  exact Nat.not_lt_zero _

theorem cons_iff (ha : name ≠ a) (hb : name ≠ b) :
    ComesFirst a b (name :: names) ↔ ComesFirst a b names := by
  rw [ComesFirst, ComesFirst, List.idxOf_cons_ne _ ha, List.idxOf_cons_ne _ hb]
  exact Nat.succ_lt_succ_iff

/-- Names that both turn up do so in the order in which they did
before more was said. -/
theorem append_iff (ha : a ∈ names) (hb : b ∈ names) :
    ComesFirst a b (names ++ more) ↔ ComesFirst a b names := by
  rw [ComesFirst, ComesFirst, List.idxOf_append_of_mem ha, List.idxOf_append_of_mem hb]

/-- A name that turns up comes before one that only does so later. -/
theorem append (ha : a ∈ names) (hb : b ∉ names) : ComesFirst a b (names ++ more) := by
  rw [ComesFirst, List.idxOf_append_of_mem ha, List.idxOf_append_of_notMem hb]
  exact Nat.lt_add_right _ (List.idxOf_lt_length_of_mem ha)

theorem ne (h : ComesFirst a b names) : a ≠ b := fun hab => Nat.lt_irrefl _ (hab ▸ h)

theorem asymm (h : ComesFirst a b names) : ¬ ComesFirst b a names := Nat.lt_asymm h

end ComesFirst

/-! ## What the goals mention -/

/-- The facts that the goals mention, from the last goal to the first: of each goal
its name, and then what its answers refer to. -/
def mentions (goals : List Goal) : List String :=
  goals.reverse.flatMap fun g => g.name :: g.targets

theorem mentions_cons (g : Goal) (gs : List Goal) :
    mentions (g :: gs) = mentions gs ++ (g.name :: g.targets) := by
  simp [mentions, List.flatMap_append]

theorem name_mem_mentions {goals : List Goal} {name : String}
    (h : name ∈ goals.map (·.name)) :
    name ∈ mentions goals := by
  obtain ⟨g, hg, rfl⟩ := List.mem_map.1 h
  exact List.mem_flatMap.2 ⟨g, List.mem_reverse.2 hg, List.mem_cons_self⟩

/-- A goal mentions what an answer refers to. -/
theorem Goal.mem_targets {g : Goal} {name : String} :
    name ∈ g.targets ↔
      ∃ answer ∈ g.answers, ∃ value, answer.value = some value ∧
        target? value = some name := by
  simp only [Goal.targets, List.mem_filterMap, Option.bind_eq_some_iff]

/-! ## What the agenda keeps of it -/

/-- The agenda holds the names that were mentioned, in the opposite order
of their first mention. -/
structure Stacks (agenda names : List String) : Prop where
  mem (name : String) : name ∈ agenda ↔ name ∈ names
  order {a b : String} (ha : a ∈ names) (hb : b ∈ names) (hne : a ≠ b) :
    ComesFirst a b agenda ↔ ComesFirst b a names

namespace Stacks

variable {agenda names : List String}

theorem nil : Stacks [] [] := ⟨fun _ => Iff.rfl, fun ha => by cases ha⟩

/-- What was mentioned before is left where it is. -/
theorem again (h : Stacks agenda names) {name : String} (hname : name ∈ names) :
    Stacks agenda (names ++ [name]) := by
  have hmem (other : String) : other ∈ names ++ [name] ↔ other ∈ names := by
    rw [List.mem_append, List.mem_singleton]
    exact ⟨fun hother => hother.elim id fun e => e ▸ hname, .inl⟩
  refine ⟨fun other => (h.mem other).trans (hmem other).symm, fun ha hb hne => ?_⟩
  rw [hmem] at ha hb
  rw [h.order ha hb hne, ComesFirst.append_iff hb ha]

/-- What is mentioned for the first time goes in front of all else. -/
theorem fresh (h : Stacks agenda names) {name : String} (hname : name ∉ names) :
    Stacks (name :: agenda) (names ++ [name]) where
  mem other := by
    rw [List.mem_cons, List.mem_append, List.mem_singleton, h.mem, or_comm]
  order {a b} ha hb hne := by
    have hold {other : String} (hother : other ∈ names ++ [name]) (hne : name ≠ other) :
        other ∈ names :=
      (List.mem_append.1 hother).elim id fun h =>
        (hne (List.mem_singleton.1 h).symm).elim
    by_cases hnamea : name = a
    · subst hnamea
      exact iff_of_true (.head hne) (.append (hold hb hne) hname)
    · by_cases hnameb : name = b
      · subst hnameb
        exact iff_of_false ComesFirst.not_head
          (ComesFirst.append (hold ha hnamea) hname).asymm
      · have ha := hold ha hnamea
        have hb := hold hb hnameb
        rw [ComesFirst.cons_iff hnamea hnameb, h.order ha hb hne,
          ComesFirst.append_iff hb ha]

/-- One more name is mentioned. -/
theorem pushNew (h : Stacks agenda names) (name : String) :
    Stacks (pushNew agenda name) (names ++ [name]) := by
  unfold Consult.pushNew
  split
  · next hname => exact h.again ((h.mem name).1 hname)
  · next hname => exact h.fresh fun hmem => hname ((h.mem name).2 hmem)

theorem foldl_pushNew (h : Stacks agenda names) (more : List String) :
    Stacks (more.foldl Consult.pushNew agenda) (names ++ more) := by
  induction more generalizing agenda names with
  | nil => rwa [List.append_nil]
  | cons name more ih =>
    rw [List.append_cons]
    exact ih (h.pushNew name)

end Stacks

/-- The agenda that is seeded holds what the goals mention, in the opposite order. -/
theorem stacks_seed (goals : List Goal) : Stacks (seed goals) (mentions goals) := by
  induction goals with
  | nil => exact Stacks.nil
  | cons g gs ih =>
    rw [mentions_cons]
    exact ih.foldl_pushNew (g.name :: g.targets)

/-! ## The order of the goals -/

namespace KnowledgeBase

/-- The names of the goals, as they are declared. -/
def goalNames (kb : KnowledgeBase) : List String := kb.goals.map (·.name)

/-- Of two goals with different names, the one that is declared first lies in front. -/
def SeededInOrder (kb : KnowledgeBase) : Prop :=
  ∀ a ∈ kb.goalNames, ∀ b ∈ kb.goalNames,
    ComesFirst a b kb.goalNames → ComesFirst a b kb.start.agenda

end KnowledgeBase

/-- Goals that no later goal mentions are mentioned from the last to the first. -/
theorem mentions_reversed {goals : List Goal}
    (h : goals.Pairwise fun g later => g.name ≠ later.name ∧ g.name ∉ later.targets)
    {a b : String} (ha : a ∈ goals.map (·.name)) (hb : b ∈ goals.map (·.name))
    (hfirst : ComesFirst a b (goals.map (·.name))) :
    ComesFirst b a (mentions goals) := by
  induction goals with
  | nil => cases ha
  | cons g gs ih =>
    obtain ⟨hg, hgs⟩ := List.pairwise_cons.1 h
    rw [List.map_cons] at ha hb hfirst
    rw [mentions_cons]
    by_cases hgb : g.name = b
    · exact (ComesFirst.not_head (hgb ▸ hfirst)).elim
    · have hb := (List.mem_cons.1 hb).resolve_left (Ne.symm hgb)
      by_cases hga : g.name = a
      · refine .append (name_mem_mentions hb) fun hmem => ?_
        obtain ⟨later, hlater, hmem⟩ := List.mem_flatMap.1 hmem
        obtain ⟨hname, htargets⟩ := hg later (List.mem_reverse.1 hlater)
        rw [← hga] at hmem
        exact (List.mem_cons.1 hmem).elim hname htargets
      · have ha := (List.mem_cons.1 ha).resolve_left (Ne.symm hga)
        rw [ComesFirst.append_iff (name_mem_mentions hb) (name_mem_mentions ha)]
        exact ih hgs ha hb ((ComesFirst.cons_iff hga hgb).1 hfirst)

/-- On the agenda are the names of the goals and what their answers refer to, nothing
else and nothing twice.  The goals keep their order exactly if, on the way from the
last goal to the first, those that are declared later are mentioned before; that is so
if no goal is mentioned by a later one. -/
theorem seeded_in_order_iff (kb : KnowledgeBase) :
    (∀ name, name ∈ kb.start.agenda ↔
      (∃ g ∈ kb.goals, g.name = name) ∨
      ∃ g ∈ kb.goals, ∃ answer ∈ g.answers, ∃ value,
        answer.value = some value ∧ target? value = some name) ∧
    kb.start.agenda.Nodup ∧
    (kb.SeededInOrder ↔
      ∀ a ∈ kb.goalNames, ∀ b ∈ kb.goalNames,
        ComesFirst a b kb.goalNames → ComesFirst b a (mentions kb.goals)) ∧
    (kb.goals.Pairwise (fun g later => g.name ≠ later.name ∧ g.name ∉ later.targets) →
      kb.SeededInOrder) := by
  have horder {a b : String} (ha : a ∈ kb.goalNames) (hb : b ∈ kb.goalNames)
      (hfirst : ComesFirst a b kb.goalNames) :
      ComesFirst a b kb.start.agenda ↔ ComesFirst b a (mentions kb.goals) :=
    (stacks_seed kb.goals).order (name_mem_mentions ha) (name_mem_mentions hb) hfirst.ne
  refine ⟨fun name => ?_, nodup_seed kb.goals, ?_, ?_⟩
  · simp only [← Goal.mem_targets]
    refine mem_seed.trans ⟨?_, ?_⟩
    · rintro ⟨g, hg, rfl | htarget⟩
      · exact .inl ⟨g, hg, rfl⟩
      · exact .inr ⟨g, hg, htarget⟩
    · rintro (⟨g, hg, rfl⟩ | ⟨g, hg, htarget⟩)
      · exact ⟨g, hg, .inl rfl⟩
      · exact ⟨g, hg, .inr htarget⟩
  · constructor
    · intro h a ha b hb hfirst
      exact (horder ha hb hfirst).1 (h a ha b hb hfirst)
    · intro h a ha b hb hfirst
      exact (horder ha hb hfirst).2 (h a ha b hb hfirst)
  · intro h a ha b hb hfirst
    exact (horder ha hb hfirst).2 (mentions_reversed h ha hb hfirst)

/-- A journey whose luggage depends on the weather: where to go, how to
get there, what to take. -/
def journey : KnowledgeBase where
  goals := [
    { name := "destination" },
    { name := "route", answers := [⟨some "$road", "Follow the road"⟩] },
    { name := "luggage", answers := [⟨some "$weather", "Pack for the weather"⟩] }]

/-- The goals of the journey keep their order, each behind what its answers refer to. -/
theorem journey_in_order :
    journey.start.agenda = ["destination", "road", "route", "weather", "luggage"] ∧
    journey.SeededInOrder :=
  ⟨by decide +kernel, (seeded_in_order_iff journey).2.2.2 (by decide +kernel)⟩

/-- A journey where what to take depends on where to go. -/
def packedJourney : KnowledgeBase where
  goals := [
    { name := "destination" },
    { name := "route" },
    { name := "luggage",
      answers := [⟨some "$destination", "Pack for the destination"⟩] }]

/-- The destination is declared first, but the route lies in front of it: the luggage,
which is declared last, mentions the destination. -/
theorem not_always_seeded_in_order : ¬ ∀ kb : KnowledgeBase, kb.SeededInOrder := by
  intro h
  have hfirst : ComesFirst "destination" "route" packedJourney.start.agenda :=
    h packedJourney "destination" (by decide +kernel) "route" (by decide +kernel)
      (by decide +kernel)
  have hagenda : packedJourney.start.agenda = ["route", "destination", "luggage"] := by
    decide +kernel
  rw [hagenda] at hfirst
  exact absurd hfirst (by decide +kernel)

end Consult
