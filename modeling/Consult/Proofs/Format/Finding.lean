import Consult.Format.Finding
import Consult.Proofs.Format.Knowledge

/-!
# Findings and their JSON forms belong together

Reasons, findings and grounds hold one another, and so do their readers, each
with less room than the one before.  A reason is read as a whole first, which takes as
much room as its parts do; its parts are settled then.

## Main results

* `Reason.rereads`, `Finding.rereads` — writing is undone.
* `Reason.confines`, `Finding.confines` — no nesting is added.
-/

namespace Consult

open Json (Reading Fields readText readItems readList readUnit readVariant fields
  member choose
  canSettle Rereads Confines)
open Json.Reading (bind_eq_ok map_eq_ok map_eq_ok_iff pure_eq_ok throw_ne_ok)

/-! ## Rules inside reasons -/

mutual

/-- A reason is written and read back if all rules in it are. -/
def Reason.Rereadable : Reason → Prop
  | .answered _ _ => True
  | .inferred r f => r.Rereadable ∧ f.Rereadable
  | .given _ => True
termination_by structural r => r

/-- A finding is written and read back if all rules in it are. -/
def Finding.Rereadable : Finding → Prop
  | .because _ gs => Ground.AllRereadable gs
termination_by structural f => f

/-- A ground is written and read back if all rules in it are. -/
def Ground.Rereadable : Ground → Prop
  | .unknown _ => True
  | .finding f => f.Rereadable
  | .cause r => r.Rereadable
termination_by structural g => g

/-- All grounds of a list are written and read back. -/
def Ground.AllRereadable : List Ground → Prop
  | [] => True
  | g :: gs => g.Rereadable ∧ Ground.AllRereadable gs
termination_by structural gs => gs

end

theorem Ground.toJsonList_eq (gs : List Ground) : toJsonList gs = gs.map toJson := by
  induction gs with
  | nil => rfl
  | cons g gs ih => simp [toJsonList, ih]

@[simp] theorem Finding.rereadable_because {v : Verdict} {gs : List Ground} :
    (because v gs).Rereadable ↔ ∀ g ∈ gs, g.Rereadable := by
  rw [Rereadable]
  induction gs with
  | nil => simp [Ground.AllRereadable]
  | cons g gs ih => simp [Ground.AllRereadable, ih]

/-! ## Writing -/

@[simp] theorem Verdict.read_toJson (settled : Bool) (room : Nat) (v : Verdict) :
    readUnit names settled room v.toJson = .ok v := by
  cases v <;> rfl

@[simp] theorem Verdict.canonical_toJson (v : Verdict) : v.toJson.Canonical := .text _

@[simp] theorem Verdict.depth_toJson (v : Verdict) : v.toJson.depth = 0 := rfl

mutual

theorem Reason.canonical_toJson : ∀ {r : Reason}, r.Rereadable → r.toJson.Canonical
  | .answered q c, _ => by simp [Reason.toJson]
  | .inferred r f, h => by
    have hrule := Rule.canonical_toJson h.1.writable
    have hfinding := Finding.canonical_toJson h.2
    simp [Reason.toJson, hrule, hfinding]
  | .given _, _ => by simp [Reason.toJson]

theorem Finding.canonical_toJson : ∀ {f : Finding}, f.Rereadable → f.toJson.Canonical
  | .because _ gs, h => by
    have hgrounds := Ground.canonical_toJsonList h
    simpa [Finding.toJson] using hgrounds

theorem Ground.canonical_toJson : ∀ {g : Ground}, g.Rereadable → g.toJson.Canonical
  | .unknown _, _ => by simp [Ground.toJson]
  | .finding f, h => by
    have hfinding := Finding.canonical_toJson h
    simp [Ground.toJson, hfinding]
  | .cause r, h => by
    have hreason := Reason.canonical_toJson h
    simp [Ground.toJson, hreason]

theorem Ground.canonical_toJsonList : ∀ {gs : List Ground}, Ground.AllRereadable gs →
    ∀ item ∈ Ground.toJsonList gs, item.Canonical
  | [], _ => nofun
  | g :: gs, h => by
    have hground := Ground.canonical_toJson h.1
    have hrest := Ground.canonical_toJsonList h.2
    simpa [Ground.toJsonList, hground] using hrest

end

/-! ## Grounds -/

namespace Ground

@[simp] theorem depth_toJson_finding (f : Finding) :
    (finding f).toJson.depth = f.toJson.depth + 1 := by
  simp [toJson]

@[simp] theorem depth_toJson_cause (r : Reason) :
    (cause r).toJson.depth = r.toJson.depth + 1 := by
  simp [toJson]

@[simp] theorem depth_toJson_unknown (fact : String) :
    (unknown fact).toJson.depth = 1 := by
  simp [toJson]

theorem read_zero_ne_ok {settled : Bool} {j : Json} {g : Ground} :
    read settled 0 j ≠ .ok g := by
  rw [read]
  intro h
  obtain ⟨_, -, h⟩ := bind_eq_ok.1 h
  exact absurd h throw_ne_ok

section Kinds

variable (settled : Bool) (room : Nat) (content : Json)

theorem read_fact : read settled (room + 1) (.object [member "fact" content]) =
    unknown <$> readText content := by
  rw [read, Json.readVariant_member]
  exact congrArg (unknown <$> ·) (Json.variant_read_ok Kind.unknown content readText)

theorem read_state : read settled (room + 1) (.object [member "state" content]) =
    finding <$> Finding.read settled room content := by
  rw [read, Json.readVariant_member]
  exact congrArg (finding <$> ·) (Json.variant_read_ok Kind.finding content _)

theorem read_cause : read settled (room + 1) (.object [member "cause" content]) =
    cause <$> Reason.read settled room content := by
  rw [read, Json.readVariant_member]
  exact congrArg (cause <$> ·) (Json.variant_read_ok Kind.cause content _)

end Kinds

variable {settled : Bool} {room : Nat}

theorem rereads_zero : Rereads (read settled) toJson Rereadable 0 := by
  intro g g'
  cases g <;> simp [read_zero_ne_ok]

/-- A ground is read back if what it holds is. -/
theorem rereads_succ
    (hfinding : Rereads (Finding.read settled) Finding.toJson Finding.Rereadable room)
    (hreason : Rereads (Reason.read settled) Reason.toJson Reason.Rereadable room) :
    Rereads (read settled) toJson Rereadable (room + 1) := by
  intro g g'
  cases g with
  | unknown fact => simp [toJson, read_fact, Rereadable, eq_comm]
  | finding f =>
      have hf := map_eq_ok_iff (b := g') (f := finding) (hfinding f)
      simpa [toJson, read_state, Rereadable] using hf
  | cause r =>
      have hr := map_eq_ok_iff (b := g') (f := cause) (hreason r)
      simpa [toJson, read_cause, Rereadable] using hr

theorem confines_zero : Confines (read settled) toJson Rereadable 0 :=
  fun _ _ h => absurd h read_zero_ne_ok

/-- A ground is written with no more nesting if what it holds is. -/
theorem confines_succ
    (hfinding : Confines (Finding.read settled) Finding.toJson Finding.Rereadable room)
    (hreason : Confines (Reason.read settled) Reason.toJson Reason.Rereadable room) :
    Confines (read settled) toJson Rereadable (room + 1) := by
  intro j g h
  rw [read] at h
  obtain ⟨v, hv, h⟩ := bind_eq_ok.1 h
  split at h
  · obtain ⟨fact, hfact, rfl⟩ := map_eq_ok.1 h
    obtain ⟨content, hdepth, -⟩ := Json.variant_content hv hfact
    rw [hdepth, depth_toJson_unknown]
    exact ⟨trivial, by omega⟩
  · obtain ⟨f, hf, rfl⟩ := map_eq_ok.1 h
    obtain ⟨content, hdepth, hf⟩ := Json.variant_content hv hf
    obtain ⟨hfit, hle⟩ := hfinding content f hf
    rw [hdepth, Nat.succ_min_succ, depth_toJson_finding]
    exact ⟨hfit, Nat.succ_le_succ hle⟩
  · obtain ⟨r, hr, rfl⟩ := map_eq_ok.1 h
    obtain ⟨content, hdepth, hr⟩ := Json.variant_content hv hr
    obtain ⟨hfit, hle⟩ := hreason content r hr
    rw [hdepth, Nat.succ_min_succ, depth_toJson_cause]
    exact ⟨hfit, Nat.succ_le_succ hle⟩

end Ground

/-! ## Findings -/

namespace Finding

variable {settled : Bool} {room : Nat}

theorem depth_toJson_le {v : Verdict} {gs : List Ground} {n : Nat} :
    (because v gs).toJson.depth ≤ n + 1 ↔
      (Json.array (gs.map Ground.toJson)).depth ≤ n := by
  simp [toJson, Ground.toJsonList_eq]

theorem depth_toJson_ne_zero (f : Finding) : f.toJson.depth ≠ 0 := by
  cases f
  simp [toJson]

theorem read_succ (settled : Bool) (room : Nat) (j : Json) :
    read settled (room + 1) j = (do
      let fs ← fields j
      let verdict := fs.field 0 "value" (readUnit Verdict.names settled room)
      let grounds := fs.field 1 "factors" (readList (Ground.read settled) room)
      fs.check [verdict.fault, grounds.fault]
      return .because (← verdict.required fs) (← grounds.required fs)) := by
  cases room <;> rfl

theorem rereads_zero : Rereads (read settled) toJson Rereadable 0 := by
  intro f f'
  simp [read, throw_ne_ok, depth_toJson_ne_zero]

/-- A finding is read back if its grounds are. -/
theorem rereads_of_grounds
    (h : ∀ room' < room, Rereads (Ground.read settled) Ground.toJson
      Ground.Rereadable room') :
    Rereads (read settled) toJson Rereadable (room + 1) := by
  rintro ⟨v, gs⟩ f
  have hgrounds := Rereads.list room h gs
  rw [depth_toJson_le, rereadable_because]
  constructor
  · intro h
    simp [read_succ, toJson, Ground.toJsonList_eq, bind_eq_ok, hgrounds] at h
    obtain ⟨-, ⟨hfit, hdepth⟩, rfl⟩ := h
    exact ⟨rfl, hfit, hdepth⟩
  · rintro ⟨rfl, hfit, hdepth⟩
    have hg := (hgrounds gs).2 ⟨rfl, hfit, hdepth⟩
    simp [read_succ, toJson, Ground.toJsonList_eq, hg, List.lookup_cons]

theorem confines_zero : Confines (read settled) toJson Rereadable 0 :=
  fun _ _ h => absurd h throw_ne_ok

/-- A finding is written with no more nesting if its grounds are. -/
theorem confines_of_grounds
    (h : ∀ room' < room, Confines (Ground.read settled) Ground.toJson
      Ground.Rereadable room') :
    Confines (read settled) toJson Rereadable (room + 1) := by
  intro j f hread
  simp only [read_succ, bind_eq_ok, pure_eq_ok] at hread
  obtain ⟨fs, hfs, _, -, v, -, gs, hgs, rfl⟩ := hread
  obtain ⟨n, hdepth, hwithin⟩ := Json.fields_within hfs
  obtain ⟨hfit, hle⟩ := (Confines.list room h).required hwithin hgs
  rw [hdepth, Nat.succ_min_succ, depth_toJson_le, rereadable_because]
  exact ⟨hfit, hle⟩

end Finding

/-! ## Reasons -/

namespace Reason

variable {settled : Bool} {room : Nat}

/-- Once the type is found, all other members are read as a whole. -/
theorem findKind_some_eq_ok {kind kind' : Kind}
    {members : List (Option String × Json)} :
    findKind settled room (some kind) members = .ok kind' ↔ kind' = kind ∧
      ∀ m ∈ members, (∃ key, m.1 = some key ∧ key ≠ "type") ∧
        (settled = true ∨ canSettle m.2 room = true) := by
  induction members with
  | nil =>
      rw [findKind, pure_eq_ok]
      simpa using eq_comm
  | cons m members ih =>
      obtain ⟨_ | key, value⟩ := m
      · simp [findKind, throw_ne_ok]
      · rw [findKind, List.forall_mem_cons]
        by_cases hkey : key = "type"
        · simp [hkey, throw_ne_ok]
        · by_cases hsettle : settled = true ∨ canSettle value room = true
          · simp [hkey, hsettle, ih]
          · simp [hkey, hsettle, throw_ne_ok]

/-- A reason that was written starts with its type. -/
theorem open?_eq_ok {name : String} {kind kind' : Kind}
    {members : List (Option String × Json)} {fs : Fields}
    (hname : Kind.names.lookup name = some kind) :
    open? settled room (.object (member "type" (.text name) :: members)) =
      .ok (kind', fs) ↔
      kind' = kind ∧ fs = .named (member "type" (.text name) :: members) ∧
        ∀ m ∈ members, (∃ key, m.1 = some key ∧ key ≠ "type") ∧
          (settled = true ∨ canSettle m.2 room = true) := by
  have hfind : findKind settled room none (member "type" (.text name) :: members) =
      findKind settled room (some kind) members := by
    simp [member, findKind, readKind, Json.text, choose, hname]
  rw [open?, hfind]
  simp only [bind_eq_ok, pure_eq_ok, findKind_some_eq_ok, Prod.mk.injEq]
  constructor
  · rintro ⟨_, ⟨rfl, hmembers⟩, rfl, rfl⟩
    exact ⟨rfl, rfl, hmembers⟩
  · rintro ⟨rfl, rfl, hmembers⟩
    exact ⟨_, ⟨rfl, hmembers⟩, rfl, rfl⟩

/-- A reason that was written is read as a whole if there is room for its parts. -/
theorem open?_of_depth_le (settled : Bool) (room : Nat) {name : String} {kind : Kind}
    (members : List (Option String × Json)) (hname : Kind.names.lookup name = some kind)
    (hmembers : ∀ m ∈ members, (∃ key, m.1 = some key ∧ key ≠ "type") ∧
      m.2.Canonical ∧ m.2.depth ≤ room) :
    open? settled room (.object (member "type" (.text name) :: members)) =
      .ok (kind, .named (member "type" (.text name) :: members)) := by
  refine (open?_eq_ok hname).2 ⟨rfl, rfl, fun m hm => ?_⟩
  obtain ⟨hkey, hcanonical, hdepth⟩ := hmembers m hm
  exact ⟨hkey, .inr ((Json.canSettle_iff hcanonical).2 hdepth)⟩

/-- The parts of a reason lie inside it. -/
theorem open?_within {j : Json} {kind : Kind} {fs : Fields}
    (h : open? settled room j = .ok (kind, fs)) :
    ∃ n, j.depth = n + 1 ∧ fs.Within n := by
  unfold open? at h
  split at h
  · next members =>
    obtain ⟨_, -, h⟩ := bind_eq_ok.1 h
    cases pure_eq_ok.1 h
    exact ⟨_, rfl, Fields.within_named⟩
  · exact absurd h throw_ne_ok
  · next first items =>
    obtain ⟨_, -, h⟩ := bind_eq_ok.1 h
    split at h
    · cases pure_eq_ok.1 h
      exact ⟨_, rfl, fun v hv => Nat.le_trans (Fields.within_listed v hv)
        (Nat.le_max_right _ _)⟩
    · exact absurd h throw_ne_ok
  · exact absurd h throw_ne_ok

theorem depth_toJson_answered_le {q : Question} {c : Choice} {n : Nat} :
    (answered q c).toJson.depth ≤ n + 1 ↔ q.toJson.depth ≤ n ∧ 2 ≤ n := by
  simp [toJson]

theorem depth_toJson_inferred_le {r : Rule} {f : Finding} {n : Nat} :
    (inferred r f).toJson.depth ≤ n + 1 ↔ r.toJson.depth ≤ n ∧ f.toJson.depth ≤ n := by
  simp [toJson]

theorem depth_toJson_given (explanation : String) :
    (given explanation).toJson.depth = 1 := by
  simp [toJson, Json.depth, Json.depthMembers]

theorem depth_toJson_ne_zero (r : Reason) : r.toJson.depth ≠ 0 := by
  cases r <;> simp [toJson]

theorem rereads_zero : Rereads (read settled) toJson Rereadable 0 := by
  intro r r'
  simp [read, throw_ne_ok, depth_toJson_ne_zero]

/-- A reason is read back if the finding in it is. -/
theorem rereads_of_finding
    (h : Rereads (Finding.read true) Finding.toJson Finding.Rereadable room) :
    Rereads (read settled) toJson Rereadable (room + 1) := by
  intro r r'
  cases r with
  | answered q c =>
      have hquestion := Question.rereads room q
      have hchoice := Choice.rereads room c
      rw [depth_toJson_answered_le, toJson]
      constructor
      · intro hread
        rw [read] at hread
        obtain ⟨⟨kind, fs⟩, hopen, hread⟩ := bind_eq_ok.1 hread
        obtain ⟨rfl, rfl, -⟩ := (open?_eq_ok rfl).1 hopen
        simp [bind_eq_ok, hquestion, hchoice] at hread
        obtain ⟨-, hq, hc, rfl⟩ := hread
        exact ⟨rfl, trivial, hq, hc⟩
      · rintro ⟨rfl, -, hq, hc⟩
        have hname : Kind.names.lookup "answered_question" = some .answered := rfl
        have hopen := open?_of_depth_le settled room
          [member "question" q.toJson, member "choice" c.toJson] hname
            (by simp [hq, hc])
        have hq := (hquestion q).2 ⟨rfl, trivial, hq⟩
        have hc := (hchoice c).2 ⟨rfl, trivial, by simpa using hc⟩
        rw [read]
        simp [hopen, hq, hc, List.lookup_cons]
  | inferred rule f =>
      have hrule := Rule.rereads true room rule
      have hfinding := h f
      rw [depth_toJson_inferred_le, toJson]
      constructor
      · intro hread
        rw [read] at hread
        obtain ⟨⟨kind, fs⟩, hopen, hread⟩ := bind_eq_ok.1 hread
        obtain ⟨rfl, rfl, -⟩ := (open?_eq_ok rfl).1 hopen
        simp [bind_eq_ok, hrule, hfinding] at hread
        obtain ⟨-, ⟨hfit_rule, hr⟩, ⟨hfit_finding, hf⟩, rfl⟩ := hread
        exact ⟨rfl, ⟨hfit_rule, hfit_finding⟩, hr, hf⟩
      · rintro ⟨rfl, ⟨hfit_rule, hfit_finding⟩, hr, hf⟩
        have hname : Kind.names.lookup "inferred_rule" = some .inferred := rfl
        have hopen := open?_of_depth_le settled room
          [member "rule" rule.toJson, member "truth" f.toJson] hname
          (by simp [hr, hf, Rule.canonical_toJson hfit_rule.writable,
            Finding.canonical_toJson hfit_finding])
        have hr := (hrule rule).2 ⟨rfl, hfit_rule, hr⟩
        have hf := (hfinding f).2 ⟨rfl, hfit_finding, hf⟩
        rw [read]
        simp [hopen, hr, hf, List.lookup_cons]
  | given explanation =>
      have hname : Kind.names.lookup "predefined_constant" = some .given := rfl
      have hopen :=
        open?_of_depth_le settled room [member "explanation" (.text explanation)] hname
        (by simp)
      have hread : read settled (room + 1) (given explanation).toJson =
          .ok (given explanation) := by
        rw [read, toJson]
        simp [hopen]
      rw [hread, depth_toJson_given]
      simp [Rereadable, eq_comm]

theorem confines_zero : Confines (read settled) toJson Rereadable 0 :=
  fun _ _ h => absurd h throw_ne_ok

/-- A reason is written with no more nesting if the finding in it is. -/
theorem confines_of_finding
    (h : Confines (Finding.read true) Finding.toJson Finding.Rereadable room) :
    Confines (read settled) toJson Rereadable (room + 1) := by
  intro j r hread
  rw [read] at hread
  obtain ⟨⟨kind, fs⟩, hopen, hread⟩ := bind_eq_ok.1 hread
  obtain ⟨n, hdepth, hwithin⟩ := open?_within hopen
  rw [hdepth, Nat.succ_min_succ]
  cases kind with
  | answered =>
      simp only [bind_eq_ok, pure_eq_ok] at hread
      obtain ⟨_, -, q, hq, c, hc, rfl⟩ := hread
      obtain ⟨-, hle_question⟩ := (Question.confines room).required hwithin hq
      obtain ⟨-, hle_choice⟩ := (Choice.confines room).required hwithin hc
      rw [Choice.depth_toJson] at hle_choice
      rw [depth_toJson_answered_le]
      exact ⟨trivial, hle_question, hle_choice⟩
  | inferred =>
      simp only [bind_eq_ok, pure_eq_ok] at hread
      obtain ⟨_, -, rule, hrule, f, hf, rfl⟩ := hread
      obtain ⟨hfit_rule, hle_rule⟩ := (Rule.confines true room).required hwithin hrule
      obtain ⟨hfit_finding, hle_finding⟩ := h.required hwithin hf
      rw [depth_toJson_inferred_le]
      exact ⟨⟨hfit_rule, hfit_finding⟩, hle_rule, hle_finding⟩
  | given =>
      simp only [bind_eq_ok, pure_eq_ok] at hread
      obtain ⟨_, -, explanation, -, rfl⟩ := hread
      rw [depth_toJson_given]
      exact ⟨trivial, by omega⟩

end Reason

/-! ## All together -/

/-- Reasons, findings and grounds are read back with any room. -/
private theorem rereads_together (room : Nat) (settled : Bool) :
    Rereads (Reason.read settled) Reason.toJson Reason.Rereadable room ∧
      Rereads (Finding.read settled) Finding.toJson Finding.Rereadable room ∧
      Rereads (Ground.read settled) Ground.toJson Ground.Rereadable room := by
  induction room using Nat.strongRecOn generalizing settled with
  | _ room ih =>
  cases room with
  | zero => exact ⟨Reason.rereads_zero, Finding.rereads_zero, Ground.rereads_zero⟩
  | succ room =>
      obtain ⟨hreason, hfinding, -⟩ := ih room (Nat.lt_succ_self _) settled
      obtain ⟨-, hsettled, -⟩ := ih room (Nat.lt_succ_self _) true
      have hgrounds : ∀ room' < room,
          Rereads (Ground.read settled) Ground.toJson Ground.Rereadable room' :=
        fun room' hlt => (ih room' (Nat.lt_succ_of_lt hlt) settled).2.2
      exact ⟨Reason.rereads_of_finding hsettled, Finding.rereads_of_grounds hgrounds,
        Ground.rereads_succ hfinding hreason⟩

/-- Reasons, findings and grounds are written with no more nesting
than they were read with. -/
private theorem confines_together (room : Nat) (settled : Bool) :
    Confines (Reason.read settled) Reason.toJson Reason.Rereadable room ∧
      Confines (Finding.read settled) Finding.toJson Finding.Rereadable room ∧
      Confines (Ground.read settled) Ground.toJson Ground.Rereadable room := by
  induction room using Nat.strongRecOn generalizing settled with
  | _ room ih =>
  cases room with
  | zero => exact ⟨Reason.confines_zero, Finding.confines_zero, Ground.confines_zero⟩
  | succ room =>
      obtain ⟨hreason, hfinding, -⟩ := ih room (Nat.lt_succ_self _) settled
      obtain ⟨-, hsettled, -⟩ := ih room (Nat.lt_succ_self _) true
      have hgrounds : ∀ room' < room,
          Confines (Ground.read settled) Ground.toJson Ground.Rereadable room' :=
        fun room' hlt => (ih room' (Nat.lt_succ_of_lt hlt) settled).2.2
      exact ⟨Reason.confines_of_finding hsettled, Finding.confines_of_grounds hgrounds,
        Ground.confines_succ hfinding hreason⟩

theorem Reason.rereads (settled : Bool) (room : Nat) :
    Rereads (read settled) toJson Rereadable room :=
  (rereads_together room settled).1

theorem Finding.rereads (settled : Bool) (room : Nat) :
    Rereads (read settled) toJson Rereadable room :=
  (rereads_together room settled).2.1

theorem Reason.confines (settled : Bool) (room : Nat) :
    Confines (read settled) toJson Rereadable room :=
  (confines_together room settled).1

theorem Finding.confines (settled : Bool) (room : Nat) :
    Confines (read settled) toJson Rereadable room :=
  (confines_together room settled).2.1

end Consult
