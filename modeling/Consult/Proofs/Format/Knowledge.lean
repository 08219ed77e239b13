import Consult.Format.Knowledge
import Consult.Proofs.Format.Condition

/-!
# Knowledge bases and their JSON forms belong together

Every field is written, so a record is written with more nesting than it was read
with only if a list of it was left out.  The lists that may be left out are the answers
of a goal and those of a knowledge base.

## Main results

* `Rule.rereads`, `Question.rereads`, `KnowledgeBase.rereads` — writing is undone.
* `Rule.confines`, `Question.confines` — no nesting is added.
* `KnowledgeBase.rereadable_of_read` — how much is added at most.
-/

namespace Consult

open Json (Reading readText readInt readNat readOptional readList readMap readUnit
  fields member
  Rereads Confines)
open Json.Reading (bind_eq_ok map_eq_ok pure_eq_ok throw_ne_ok)

/-! ## Plain fields -/

@[simp] theorem readOptional_text (s : String) :
    readOptional readText (.text s) = .ok (some s) :=
  rfl

@[simp] theorem readOptional_optionalText (o : Option String) :
    readOptional readText (optionalText o) = .ok o := by
  cases o <;> rfl

@[simp] theorem readPriority_ofInt (n : Int32) :
    readPriority (.ofInt n.toInt) = .ok n := by
  have hint : readInt Int32.minValue.toInt Int32.maxValue.toInt (.ofInt n.toInt) =
      .ok n.toInt :=
    Json.readInt_eq_ok.2 ⟨Json.toInt?_ofInt n.toInt, n.minValue_le_toInt, n.toInt_le⟩
  rw [readPriority, hint, Json.Reading.ok_map, Int32.ofInt_toInt]

@[simp] theorem readLineNumber_ofNat (n : UInt64) :
    readOptional readLineNumber (.ofNat n.toNat) = .ok (some n) := by
  have hnat : readNat (.ofNat n.toNat) = .ok n.toNat :=
    Json.readNat_ofNat.2 ⟨rfl, n.toNat_lt⟩
  show some <$> readLineNumber (.ofNat n.toNat) = _
  simp [readLineNumber, hnat]

@[simp] theorem canonical_lineNumber (n : UInt64) : (Json.ofNat n.toNat).Canonical :=
  Json.canonical_ofNat n.toNat_lt

@[simp] theorem Strategy.read_toJson (settled : Bool) (room : Nat) (s : Strategy) :
    readUnit names settled room s.toJson = .ok s := by
  cases s <;> rfl

@[simp] theorem Strategy.canonical_toJson (s : Strategy) : s.toJson.Canonical := by
  cases s <;> simp [toJson]

@[simp] theorem Strategy.depth_toJson (s : Strategy) : s.toJson.depth = 0 := by
  cases s <;> rfl

/-! ## Consequences -/

namespace Consequences

theorem toJson_eq (cs : Consequences) : cs.toJson = Json.mapToJson Json.text cs := rfl

@[simp] theorem canonical_toJson (cs : Consequences) : cs.toJson.Canonical := by
  simp [toJson_eq, Json.canonical_mapToJson]

@[simp] theorem depth_toJson (cs : Consequences) : cs.toJson.depth = 1 := by
  refine Nat.le_antisymm ?_ (Nat.one_le_iff_ne_zero.2 ?_)
  · rw [toJson_eq, Json.depth_mapToJson_le]
    simp
  · exact Json.depth_object_ne_zero _

theorem rereads (room : Nat) : Rereads read toJson (fun _ => True) room := by
  intro cs ds
  have h := Rereads.map room (fun _ _ => Json.rereads_text) cs ds
  rw [toJson_eq]
  simpa [read] using h

theorem confines (room : Nat) : Confines read toJson (fun _ => True) room := by
  intro j cs h
  obtain ⟨-, hle⟩ := Confines.map room (fun _ _ => Json.confines_text) j cs h
  exact ⟨trivial, hle⟩

end Consequences

/-! ## Rules -/

namespace Rule

/-- A rule is written and read back if its condition is. -/
def Rereadable (r : Rule) : Prop := r.condition.Rereadable

theorem canonical_toJson {r : Rule} (h : r.condition.Writable) :
    r.toJson.Canonical := by
  have hcondition := Condition.canonical_toJson h
  rcases r with ⟨description, condition, consequences, priority, _ | line⟩
  · simp [toJson, optionalMember, hcondition]
  · simp [toJson, optionalMember, hcondition]

theorem depth_toJson_le {r : Rule} {n : Nat} :
    r.toJson.depth ≤ n + 1 ↔ r.condition.toJson.depth ≤ n := by
  have hcondition := Nat.pos_of_ne_zero r.condition.depth_toJson_ne_zero
  have hconsequences : r.condition.toJson.depth ≤ n → 1 ≤ n := Nat.le_trans hcondition
  rcases r with ⟨description, condition, consequences, priority, _ | line⟩
  · simpa [toJson, optionalMember] using hconsequences
  · simpa [toJson, optionalMember] using hconsequences

theorem rereads (settled : Bool) (room : Nat) :
    Rereads (read settled) toJson Rereadable room := by
  intro r r'
  cases room with
  | zero => simp [read, throw_ne_ok, toJson]
  | succ room =>
      rw [depth_toJson_le]
      obtain ⟨description, condition, consequences, priority, line⟩ := r
      have hcondition := Condition.rereads settled room condition
      have hconsequences := Consequences.rereads room consequences
      have hpos := Nat.pos_of_ne_zero condition.depth_toJson_ne_zero
      constructor
      · intro h
        cases line <;>
          simp [read, toJson, optionalMember, bind_eq_ok, hcondition,
            hconsequences] at h
        · obtain ⟨-, hfit, -, rfl⟩ := h
          exact ⟨rfl, hfit⟩
        · obtain ⟨-, hfit, -, rfl⟩ := h
          exact ⟨rfl, hfit⟩
      · rintro ⟨rfl, hfit, hdepth⟩
        have hroom : 1 ≤ room := Nat.le_trans hpos hdepth
        have hc := (hcondition condition).2 ⟨rfl, hfit, hdepth⟩
        have hq := (hconsequences consequences).2 ⟨rfl, trivial, by simpa using hroom⟩
        cases line <;> simp [read, toJson, optionalMember, hc, hq, List.lookup_cons]

/-- A rule that was read is written with no more nesting. -/
theorem confines (settled : Bool) (room : Nat) :
    Confines (read settled) toJson Rereadable room := by
  intro j r h
  cases room with
  | zero => exact absurd h throw_ne_ok
  | succ room =>
      simp only [read, bind_eq_ok, pure_eq_ok] at h
      obtain ⟨fs, hfs, _, -, description, -, condition, hcondition, consequences, -,
          priority, -,
        line, -, rfl⟩ := h
      obtain ⟨n, hdepth, hwithin⟩ := Json.fields_within hfs
      obtain ⟨hfit, hle⟩ :=
        (Condition.confines settled room).required hwithin hcondition
      rw [hdepth, Nat.succ_min_succ, depth_toJson_le]
      exact ⟨hfit, hle⟩

end Rule

/-! ## Questions -/

namespace Choice

@[simp] theorem canonical_toJson (c : Choice) : c.toJson.Canonical := by
  simp [toJson]

@[simp] theorem depth_toJson (c : Choice) : c.toJson.depth = 2 := by
  simp [toJson, Json.depth, Json.depthMembers]

theorem rereads (room : Nat) : Rereads read toJson (fun _ => True) room := by
  intro c c'
  rw [depth_toJson]
  cases room with
  | zero => simp [read, throw_ne_ok]
  | succ room =>
      have hconsequences := Consequences.rereads room c.consequences
      constructor
      · intro h
        simp [read, toJson, bind_eq_ok, hconsequences] at h
        obtain ⟨-, hroom, rfl⟩ := h
        exact ⟨rfl, trivial, Nat.succ_le_succ hroom⟩
      · rintro ⟨rfl, -, hroom⟩
        have hq := (hconsequences c'.consequences).2
          ⟨rfl, trivial, by simpa using Nat.le_of_succ_le_succ hroom⟩
        simp [read, toJson, hq, List.lookup_cons]

theorem confines (room : Nat) : Confines read toJson (fun _ => True) room := by
  intro j c h
  cases room with
  | zero => exact absurd h throw_ne_ok
  | succ room =>
      simp only [read, bind_eq_ok, pure_eq_ok] at h
      obtain ⟨fs, hfs, _, -, description, -, consequences, hconsequences, rfl⟩ := h
      obtain ⟨n, hdepth, hwithin⟩ := Json.fields_within hfs
      obtain ⟨-, hle⟩ := (Consequences.confines room).required hwithin hconsequences
      rw [Consequences.depth_toJson] at hle
      rw [hdepth, Nat.succ_min_succ, depth_toJson]
      exact ⟨trivial, Nat.succ_le_succ hle⟩

end Choice

namespace Question

@[simp] theorem canonical_toJson (q : Question) : q.toJson.Canonical := by
  rcases q with ⟨description, options, priority, _ | line⟩
  · simp [toJson, optionalMember]
  · simp [toJson, optionalMember]

theorem depth_toJson_le {q : Question} {n : Nat} :
    q.toJson.depth ≤ n + 1 ↔ (Json.array (q.options.map Choice.toJson)).depth ≤ n := by
  rcases q with ⟨description, options, priority, _ | line⟩
  · simp [toJson, optionalMember]
  · simp [toJson, optionalMember]

theorem rereads (room : Nat) : Rereads read toJson (fun _ => True) room := by
  intro q q'
  cases room with
  | zero => simp [read, throw_ne_ok, toJson]
  | succ room =>
      rw [depth_toJson_le]
      obtain ⟨description, options, priority, line⟩ := q
      have hoptions := Rereads.list room (fun room' _ => Choice.rereads room') options
      constructor
      · intro h
        cases line <;> simp [read, toJson, optionalMember, bind_eq_ok, hoptions] at h
        · obtain ⟨-, hdepth, rfl⟩ := h
          exact ⟨rfl, trivial, hdepth⟩
        · obtain ⟨-, hdepth, rfl⟩ := h
          exact ⟨rfl, trivial, hdepth⟩
      · rintro ⟨rfl, -, hdepth⟩
        have ho := (hoptions options).2 ⟨rfl, fun _ _ => trivial, hdepth⟩
        cases line <;> simp [read, toJson, optionalMember, ho, List.lookup_cons]

theorem confines (room : Nat) : Confines read toJson (fun _ => True) room := by
  intro j q h
  cases room with
  | zero => exact absurd h throw_ne_ok
  | succ room =>
      simp only [read, bind_eq_ok, pure_eq_ok] at h
      obtain ⟨fs, hfs, _, -, description, -, options, hoptions, priority, -,
          line, -, rfl⟩ := h
      obtain ⟨n, hdepth, hwithin⟩ := Json.fields_within hfs
      have hlist := Confines.list room fun room' _ => Choice.confines room'
      obtain ⟨-, hle⟩ := hlist.required hwithin hoptions
      rw [hdepth, Nat.succ_min_succ, depth_toJson_le]
      exact ⟨trivial, hle⟩

end Question

/-! ## Goals -/

namespace Answer

@[simp] theorem canonical_toJson (a : Answer) : a.toJson.Canonical := by
  rcases a with ⟨_ | value, description⟩
  · simp [toJson, optionalText]
  · simp [toJson, optionalText]

@[simp] theorem depth_toJson (a : Answer) : a.toJson.depth = 1 := by
  rcases a with ⟨_ | value, description⟩
  · simp [toJson, optionalText, Json.depth, Json.depthMembers]
  · simp [toJson, optionalText, Json.depth, Json.depthMembers]

theorem rereads (room : Nat) : Rereads read toJson (fun _ => True) room := by
  intro a a'
  rw [depth_toJson]
  cases room with
  | zero => simp [read, throw_ne_ok]
  | succ room =>
      have hread : read (room + 1) a.toJson =
          .ok a := by simp [read, toJson, List.lookup_cons]
      simp [hread, eq_comm]

theorem confines (room : Nat) : Confines read toJson (fun _ => True) room := by
  intro j a h
  rw [depth_toJson]
  cases room with
  | zero => exact absurd h throw_ne_ok
  | succ room =>
      obtain ⟨fs, hfs, -⟩ := bind_eq_ok.1 h
      obtain ⟨n, hdepth, -⟩ := Json.fields_within hfs
      exact ⟨trivial, by omega⟩

end Answer

namespace Goal

@[simp] theorem canonical_toJson (g : Goal) : g.toJson.Canonical := by
  simp [toJson]

theorem depth_toJson_le {g : Goal} {n : Nat} :
    g.toJson.depth ≤ n + 1 ↔ (Json.array (g.answers.map Answer.toJson)).depth ≤ n := by
  simp [toJson]

theorem rereads (room : Nat) : Rereads read toJson (fun _ => True) room := by
  intro g g'
  cases room with
  | zero => simp [read, throw_ne_ok, toJson]
  | succ room =>
      rw [depth_toJson_le]
      have hanswers := Rereads.list room (fun room' _ => Answer.rereads room') g.answers
      constructor
      · intro h
        simp [read, toJson, bind_eq_ok, hanswers] at h
        obtain ⟨-, hdepth, rfl⟩ := h
        exact ⟨rfl, trivial, hdepth⟩
      · rintro ⟨rfl, -, hdepth⟩
        have ha := (hanswers g'.answers).2 ⟨rfl, fun _ _ => trivial, hdepth⟩
        simp [read, toJson, ha, List.lookup_cons]

/-- The answers of a goal may be left out; to write that there are
none takes two levels. -/
theorem depth_of_read {room : Nat} {j : Json} {g : Goal} (h : read room j = .ok g) :
    j.depth ≠ 0 ∧ g.toJson.depth ≤ max 2 (min room j.depth) := by
  cases room with
  | zero => exact absurd h throw_ne_ok
  | succ room =>
      simp only [read, bind_eq_ok, pure_eq_ok] at h
      obtain ⟨fs, hfs, _, -, name, -, description, -, answers, hanswers, rfl⟩ := h
      obtain ⟨n, hdepth, hwithin⟩ := Json.fields_within hfs
      have hlist := Confines.list room fun room' _ => Answer.confines room'
      have hmax : max 2 (min (room + 1) (n + 1)) = max 1 (min room n) + 1 := by omega
      rw [hdepth, hmax, depth_toJson_le]
      refine ⟨Nat.succ_ne_zero n, ?_⟩
      rcases hlist.withDefault hwithin hanswers with ⟨-, hle⟩ | rfl
      · exact Nat.le_trans hle (Nat.le_max_right 1 _)
      · exact Nat.le_max_left 1 _

/-- The same for a list of goals, which may be empty. -/
theorem depth_of_readList {room : Nat} {j : Json} {gs : List Goal}
    (h : readList read room j = .ok gs) :
    (Json.array (gs.map toJson)).depth ≤ max 3 (min room j.depth) ∧
      (Json.array (gs.map toJson)).depth ≤ j.depth + 1 := by
  obtain ⟨room, n, rfl, hdepth, hvalues⟩ := Json.readList_values h
  have hmax : max 3 (min (room + 1) (n + 1)) = max 2 (min room n) + 1 := by omega
  rw [hdepth, hmax, Json.depth_array_le, Json.depth_array_le, List.forall_mem_map,
    List.forall_mem_map]
  refine ⟨fun g hg => ?_, fun g hg => ?_⟩
  · obtain ⟨v, hv, hread⟩ := hvalues g hg
    have hgoal := depth_of_read hread
    omega
  · obtain ⟨v, hv, hread⟩ := hvalues g hg
    have hgoal := depth_of_read hread
    omega

end Goal

/-! ## Knowledge bases -/

namespace KnowledgeBase

/-- A knowledge base is written and read back if its rules are. -/
def Rereadable (kb : KnowledgeBase) : Prop := ∀ r ∈ kb.rules, r.Rereadable

theorem canonical_toJson {kb : KnowledgeBase}
    (h : ∀ r ∈ kb.rules, r.condition.Writable) :
    kb.toJson.Canonical := by
  have hrules : ∀ r ∈ kb.rules, r.toJson.Canonical :=
    fun r hr => Rule.canonical_toJson (h r hr)
  rcases kb with ⟨title, _ | description, strategy, rules, questions, goals, facts⟩
  · simpa [toJson, optionalMember] using hrules
  · simpa [toJson, optionalMember] using hrules

theorem depth_toJson_le {kb : KnowledgeBase} {n : Nat} :
    kb.toJson.depth ≤ n + 1 ↔ (Json.array (kb.rules.map Rule.toJson)).depth ≤ n ∧
      (Json.array (kb.questions.map Question.toJson)).depth ≤ n ∧
      (Json.array (kb.goals.map Goal.toJson)).depth ≤ n := by
  have hgoals :=
    Nat.pos_of_ne_zero (Json.depth_array_ne_zero (kb.goals.map Goal.toJson))
  have hfacts : (Json.array (kb.goals.map Goal.toJson)).depth ≤ n → 1 ≤ n :=
    Nat.le_trans hgoals
  rcases kb with ⟨title, _ | description, strategy, rules, questions, goals, facts⟩
  · simpa [toJson, optionalMember] using fun _ _ => hfacts
  · simpa [toJson, optionalMember] using fun _ _ => hfacts

theorem rereads (room : Nat) : Rereads read toJson Rereadable room := by
  intro kb kb'
  cases room with
  | zero => simp [read, throw_ne_ok, toJson]
  | succ room =>
      rw [depth_toJson_le]
      obtain ⟨title, description, strategy, rules, questions, goals, facts⟩ := kb
      have hrules := Rereads.list room (fun room' _ => Rule.rereads false room') rules
      have hquestions :=
        Rereads.list room (fun room' _ => Question.rereads room') questions
      have hgoals := Rereads.list room (fun room' _ => Goal.rereads room') goals
      have hfacts := Consequences.rereads room facts
      have hpos := Nat.pos_of_ne_zero (Json.depth_array_ne_zero (goals.map Goal.toJson))
      constructor
      · intro h
        cases description <;>
          simp [read, toJson, optionalMember, bind_eq_ok, hrules, hquestions, hgoals,
            hfacts] at h
        · obtain ⟨-, ⟨hfit, hr⟩, hq, hg, -, rfl⟩ := h
          exact ⟨rfl, hfit, hr, hq, hg⟩
        · obtain ⟨-, ⟨hfit, hr⟩, hq, hg, -, rfl⟩ := h
          exact ⟨rfl, hfit, hr, hq, hg⟩
      · rintro ⟨rfl, hfit, hle_rules, hle_questions, hle_goals⟩
        have hroom : 1 ≤ room := Nat.le_trans hpos hle_goals
        have hr := (hrules rules).2 ⟨rfl, hfit, hle_rules⟩
        have hq := (hquestions questions).2 ⟨rfl, fun _ _ => trivial, hle_questions⟩
        have hg := (hgoals goals).2 ⟨rfl, fun _ _ => trivial, hle_goals⟩
        have hf := (hfacts facts).2 ⟨rfl, trivial, by simpa using hroom⟩
        cases description <;> simp [read, toJson, optionalMember, hr, hq, hg, hf,
          List.lookup_cons]

/-- A knowledge base that was read can be written and read back.  All its lists may be
left out, so this can take one more level, up to the fourth one. -/
theorem rereadable_of_read {room : Nat} {j : Json} {kb : KnowledgeBase}
    (h : read room j = .ok kb) :
    kb.Rereadable ∧ kb.toJson.depth ≤ max 4 (min room j.depth) ∧
      kb.toJson.depth ≤ j.depth + 1 := by
  cases room with
  | zero => exact absurd h throw_ne_ok
  | succ room =>
      simp only [read, bind_eq_ok, pure_eq_ok] at h
      obtain ⟨fs, hfs, _, -, title, -, description, -, strategy, -, rules,
          hrules, questions,
        hquestions, goals, hgoals, facts, -, rfl⟩ := h
      obtain ⟨n, hdepth, hwithin⟩ := Json.fields_within hfs
      have hempty : (Json.array []).depth = 1 := rfl
      have hr : (∀ r ∈ rules, r.Rereadable) ∧
          (Json.array (rules.map Rule.toJson)).depth ≤ max 1 (min room n) := by
        have hlist := Confines.list room fun room' _ => Rule.confines false room'
        rcases hlist.withDefault hwithin hrules with ⟨hfit, hle⟩ | rfl
        · exact ⟨hfit, Nat.le_trans hle (Nat.le_max_right 1 _)⟩
        · exact ⟨nofun, Nat.le_max_left 1 _⟩
      have hq : (Json.array (questions.map Question.toJson)).depth ≤
          max 1 (min room n) := by
        have hlist := Confines.list room fun room' _ => Question.confines room'
        rcases hlist.withDefault hwithin hquestions with ⟨-, hle⟩ | rfl
        · exact Nat.le_trans hle (Nat.le_max_right 1 _)
        · exact Nat.le_max_left 1 _
      have hg : (Json.array (goals.map Goal.toJson)).depth ≤ max 3 (min room n) ∧
          (Json.array (goals.map Goal.toJson)).depth ≤ n + 1 := by
        rcases Json.Field.value_of_withDefault hwithin hgoals with ⟨v, hv, hread⟩ | rfl
        · have hlist := Goal.depth_of_readList hread
          omega
        · simp only [List.map_nil, hempty]
          omega
      have hmax : max 4 (min (room + 1) (n + 1)) = max 3 (min room n) + 1 := by omega
      rw [hdepth, hmax, depth_toJson_le, depth_toJson_le]
      refine ⟨hr.1, ⟨?_, ?_, hg.1⟩, ?_, ?_, hg.2⟩ <;> dsimp only <;> omega

end KnowledgeBase

end Consult
