import Consult.Format.Condition
import Consult.Proofs.Condition.Groups
import Consult.Proofs.Json.Rereading

/-!
# Conditions and their JSON forms belong together

The spelling of a group is chosen by its threshold: `all` and `any` do without it, and
`some` writes it as a number of 64 bits.  A condition is read back exactly if that works
for each of its groups, and every condition that was read is of this kind.

## Main results

* `Condition.rereadable_of_check` — when a checked condition can be written and read
  back.
* `Condition.canonical_toJson` — when a condition can be written.
* `Condition.rereads`, `Condition.confines` — reading undoes writing.
-/

namespace Consult

open Json (Reading readText readNat readItems readList readUnit readVariant fields
  member choose
  Rereads Confines)
open Json.Reading (bind_eq_ok map_eq_ok map_eq_ok_iff pure_eq_ok throw_ne_ok)

namespace Condition

/-! ## Groups that can be written -/

/-- A group can be written if its threshold can, or need not be. -/
def Writable (c : Condition) : Prop := c.EachGroup fun k n => k = n ∨ k < UInt64.size

/-- A group can be written and read back if it is also one that `some` may spell,
unless it is spelled otherwise. -/
def Rereadable (c : Condition) : Prop :=
  c.EachGroup fun k n => k = n ∨ k = 1 ∨ k ≤ n ∧ k < UInt64.size

@[simp] theorem rereadable_compare (k : Comparison) : (compare k).Rereadable :=
  eachGroup_compare k

@[simp] theorem rereadable_negation {c : Condition} :
    (negation c).Rereadable ↔ c.Rereadable :=
  Iff.rfl

@[simp] theorem rereadable_atLeast {k : Nat} {cs : List Condition} :
    (atLeast k cs).Rereadable ↔
      (k = cs.length ∨ k = 1 ∨ k ≤ cs.length ∧ k < UInt64.size) ∧
        ∀ c ∈ cs, c.Rereadable :=
  eachGroup_atLeast

theorem Rereadable.writable {c : Condition} (h : c.Rereadable) : c.Writable := by
  refine EachGroup.imp h fun k n hk => ?_
  have hsize : UInt64.size = 18446744073709551616 := rfl
  omega

/-- A checked condition whose thresholds have 64 bits can be written and read back. -/
theorem rereadable_of_check {c : Condition} (hcheck : c.check = .ok ())
    (hthresholds : c.EachGroup fun k _ => k < UInt64.size) : c.Rereadable :=
  fun g hg => .inr (.inr ⟨check_eq_ok.1 hcheck g hg, hthresholds g hg⟩)

end Condition

/-! ## Comparisons -/

namespace Relation

@[simp] theorem read_toJson (settled : Bool) (room : Nat) (r : Relation) :
    read settled room r.toJson = .ok r := by
  cases r <;> rfl

end Relation

namespace Comparison

@[simp] theorem canonical_toJson (c : Comparison) : c.toJson.Canonical := by
  simp [toJson, Relation.toJson]

theorem depth_toJson (c : Comparison) : c.toJson.depth = 1 := by
  simp [toJson, Json.depth, Json.depthMembers, member, Relation.toJson]

theorem rereads (settled : Bool) (room : Nat) :
    Rereads (read settled) toJson (fun _ => True) room := by
  intro c d
  rw [depth_toJson]
  cases room with
  | zero => simp [read, throw_ne_ok]
  | succ room =>
      have hread : read settled (room + 1) c.toJson =
          .ok c := by simp [read, toJson, List.lookup_cons]
      simp [hread, eq_comm]

theorem confines (settled : Bool) (room : Nat) :
    Confines (read settled) toJson (fun _ => True) room := by
  intro j c h
  rw [depth_toJson]
  cases room with
  | zero => exact absurd h throw_ne_ok
  | succ room =>
      obtain ⟨fs, hfs, -⟩ := bind_eq_ok.1 h
      obtain ⟨n, hdepth, -⟩ := Json.fields_within hfs
      exact ⟨trivial, by omega⟩

end Comparison

/-! ## Conditions -/

namespace Condition

theorem canonical_toJson {c : Condition} (h : c.Writable) : c.toJson.Canonical := by
  induction c using Condition.induction with
  | compare k => simp [toJson]
  | negation c ih => simpa [toJson] using ih h
  | atLeast k cs ih =>
      obtain ⟨hk, hcs⟩ := eachGroup_atLeast.1 h
      have hitems : ∀ c ∈ cs, c.toJson.Canonical := fun c hc => ih c hc (hcs c hc)
      rw [toJson, toJsonList_eq]
      split
      · simpa using hitems
      · next hall =>
        have hthreshold := Json.canonical_ofNat (hk.resolve_left hall)
        split <;> simpa [hthreshold] using hitems

/-- The depth of a group, however it is spelled. -/
theorem depth_toJson_atLeast_le (k : Nat) (cs : List Condition) :
    (atLeast k cs).toJson.depth ≤ (Json.array (cs.map toJson)).depth + 2 := by
  rw [toJson, toJsonList_eq]
  split
  · simp
  · split
    · simp
    · simp [Json.depth, Json.depthMembers]

theorem depth_toJson_all (cs : List Condition) :
    (all cs).toJson.depth = (Json.array (cs.map toJson)).depth + 1 := by
  simp [all, toJson, toJsonList_eq]

theorem depth_toJson_any (cs : List Condition) :
    (any cs).toJson.depth = (Json.array (cs.map toJson)).depth + 1 := by
  rw [any, toJson, toJsonList_eq]
  split <;> simp

theorem depth_toJson_ne_zero (c : Condition) : c.toJson.depth ≠ 0 := by
  cases c with
  | compare k => simp [toJson]
  | negation c => simp [toJson]
  | atLeast k cs =>
      rw [toJson]
      split
      · simp
      · split <;> simp

/-- Reads the threshold and the members of a group that is spelled `some`. -/
def readGroup (settled : Bool) : (room : Nat) → Json → Reading (Nat × List Condition)
  | 0, _ => throw .malformed
  | room + 1, j => do
    let fs ← fields j
    let threshold := fs.field 0 "threshold" readNat
    let conditions := fs.field 1 "conditions" (readList (read settled) room)
    fs.check [threshold.fault, conditions.fault]
    return (← threshold.required fs, ← conditions.required fs)

/-- How a condition of any kind is read. -/
theorem read_succ (settled : Bool) (room : Nat) (j : Json) :
    read settled (room + 1) j = (do
      let v ← readVariant Spelling.names settled (room + 1) j
      match v.kind with
      | .fact => compare <$> v.read (Comparison.read settled room)
      | .not => negation <$> v.read (read settled room)
      | .all => all <$> v.read (readList (read settled) room)
      | .any => any <$> v.read (readList (read settled) room)
      | .some => do
        let (k, cs) ← v.read (readGroup settled room)
        if k ≤ cs.length then return atLeast k cs
        else throw (.excessiveThreshold k cs.length)) := by
  rw [read.eq_def]
  cases room with
  | zero => rfl
  | succ room => cases room <;> rfl

theorem read_zero_ne_ok {settled : Bool} {j : Json} {c : Condition} :
    read settled 0 j ≠ .ok c := by
  rw [read]
  intro h
  obtain ⟨_, -, h⟩ := bind_eq_ok.1 h
  exact absurd h throw_ne_ok

/-- A condition that was written is read according to its spelling. -/
theorem read_member (settled : Bool) (room : Nat) (name : String) (content : Json) :
    read settled (room + 1) (.object [member name content]) = (do
      match ← choose Spelling.names name with
      | .fact => compare <$> Comparison.read settled room content
      | .not => negation <$> read settled room content
      | .all => all <$> readList (read settled) room content
      | .any => any <$> readList (read settled) room content
      | .some => do
        let (k, cs) ← readGroup settled room content
        if k ≤ cs.length then return atLeast k cs
        else throw (.excessiveThreshold k cs.length)) := by
  rw [read_succ, Json.readVariant_member]
  cases choose Spelling.names name with
  | error flaw => rfl
  | ok kind => cases kind <;> simp

section Spellings

variable (settled : Bool) (room : Nat) (content : Json)

theorem read_fact : read settled (room + 1) (.object [member "fact" content]) =
    compare <$> Comparison.read settled room content := by
  rw [read_member]
  rfl

theorem read_not : read settled (room + 1) (.object [member "not" content]) =
    negation <$> read settled room content := by
  rw [read_member]
  rfl

theorem read_all : read settled (room + 1) (.object [member "all" content]) =
    all <$> readList (read settled) room content := by
  rw [read_member]
  rfl

theorem read_any : read settled (room + 1) (.object [member "any" content]) =
    any <$> readList (read settled) room content := by
  rw [read_member]
  rfl

theorem read_some : read settled (room + 1) (.object [member "some" content]) = (do
    let (k, cs) ← readGroup settled room content
    if k ≤ cs.length then return atLeast k cs
    else throw (.excessiveThreshold k cs.length)) := by
  rw [read_member]
  rfl

end Spellings

/-- The JSON form of a group that is spelled `some`, apart from its spelling. -/
def groupToJson (k : Nat) (cs : List Condition) : Json :=
  .object [member "threshold" (.ofNat k), member "conditions" (.array (cs.map toJson))]

theorem depth_groupToJson (k : Nat) (cs : List Condition) :
    (groupToJson k cs).depth = (Json.array (cs.map toJson)).depth + 1 := by
  simp [groupToJson, Json.depth, Json.depthMembers]

/-- The JSON form of a group that is spelled `some`. -/
theorem toJson_some {k : Nat} {cs : List Condition} (hall : k ≠ cs.length)
    (hany : k ≠ 1) :
    (atLeast k cs).toJson = .object [member "some" (groupToJson k cs)] := by
  rw [toJson, if_neg hall, if_neg hany, toJsonList_eq]
  rfl

theorem readGroup_groupToJson {settled : Bool} {room : Nat}
    (h : ∀ room' < room, Rereads (read settled) toJson Rereadable room') {k l : Nat}
    {cs ds : List Condition} :
    readGroup settled room (groupToJson k cs) = .ok (l, ds) ↔
      l = k ∧ ds = cs ∧ k < UInt64.size ∧ (∀ c ∈ cs, c.Rereadable) ∧
        (groupToJson k cs).depth ≤ room := by
  rw [depth_groupToJson]
  cases room with
  | zero => simp [readGroup, throw_ne_ok]
  | succ room =>
      have hlist := Rereads.list room fun room' hlt => h room' (Nat.lt_succ_of_lt hlt)
      constructor
      · intro hread
        simp [readGroup, groupToJson, bind_eq_ok] at hread
        obtain ⟨-, hl, hds⟩ := hread
        obtain ⟨rfl, hk⟩ := Json.readNat_ofNat.1 hl
        obtain ⟨rfl, hcs, hdepth⟩ := (hlist cs ds).1 hds
        exact ⟨rfl, rfl, hk, hcs, Nat.succ_le_succ hdepth⟩
      · rintro ⟨rfl, rfl, hk, hcs, hdepth⟩
        have hthreshold := Json.readNat_ofNat.2 ⟨rfl, hk⟩
        have hconditions := (hlist ds ds).2 ⟨rfl, hcs, Nat.le_of_succ_le_succ hdepth⟩
        simp [readGroup, groupToJson, hthreshold, hconditions, List.lookup_cons]

/-- A condition is read back if its groups allow it. -/
theorem rereads (settled : Bool) (room : Nat) :
    Rereads (read settled) toJson Rereadable room := by
  induction room using Nat.strongRecOn with
  | _ room ih =>
  intro c d
  cases room with
  | zero => simp [read_zero_ne_ok, depth_toJson_ne_zero]
  | succ room =>
      have hbelow : ∀ room' < room, Rereads (read settled) toJson Rereadable room' :=
        fun room' hlt => ih room' (Nat.lt_succ_of_lt hlt)
      cases c with
      | compare k =>
          have hk :=
            map_eq_ok_iff (b := d) (f := compare) (Comparison.rereads settled room k)
          simpa [toJson, read_fact] using hk
      | negation c =>
          have hc :=
            map_eq_ok_iff (b := d) (f := negation) (ih room (Nat.lt_succ_self _) c)
          simpa [toJson, read_not] using hc
      | atLeast k cs =>
          by_cases hall : k = cs.length
          · subst hall
            have hcs := map_eq_ok_iff (b := d) (f := all) (Rereads.list _ hbelow cs)
            simpa [toJson, toJsonList_eq, read_all, all] using hcs
          by_cases hany : k = 1
          · subst hany
            have hcs := map_eq_ok_iff (b := d) (f := any) (Rereads.list _ hbelow cs)
            simpa [toJson, hall, toJsonList_eq, read_any, any] using hcs
          rw [toJson_some hall hany, read_some, rereadable_atLeast]
          constructor
          · intro hread
            obtain ⟨⟨l, ds⟩, hgroup, hrest⟩ := bind_eq_ok.1 hread
            obtain ⟨rfl, rfl, hl, hds, hdepth⟩ :=
              (readGroup_groupToJson hbelow).1 hgroup
            dsimp only at hrest
            split at hrest
            · next hle =>
              exact ⟨(pure_eq_ok.1 hrest).symm, ⟨.inr (.inr ⟨hle, hl⟩), hds⟩, by
                simpa using hdepth⟩
            · exact absurd hrest throw_ne_ok
          · rintro ⟨rfl, ⟨hk, hcs⟩, hdepth⟩
            obtain ⟨hle, hlt⟩ := (hk.resolve_left hall).resolve_left hany
            have hgroup := (readGroup_groupToJson hbelow).2
              ⟨rfl, rfl, hlt, hcs, by simpa using hdepth⟩
            simp [hgroup, hle]

/-- The members of a group that was read as `some` lie two levels below. -/
theorem readGroup_confines {settled : Bool} {room : Nat}
    (h : ∀ room' < room, Confines (read settled) toJson Rereadable room') {j : Json}
    {k : Nat} {cs : List Condition} (hread : readGroup settled room j = .ok (k, cs)) :
    k < UInt64.size ∧ (∀ c ∈ cs, c.Rereadable) ∧
      (Json.array (cs.map toJson)).depth + 1 ≤ min room j.depth := by
  cases room with
  | zero => exact absurd hread throw_ne_ok
  | succ room =>
      have hlist := Confines.list room fun room' hlt => h room' (Nat.lt_succ_of_lt hlt)
      obtain ⟨fs, hfs, hread⟩ := bind_eq_ok.1 hread
      obtain ⟨_, -, hread⟩ := bind_eq_ok.1 hread
      obtain ⟨k', hk, hread⟩ := bind_eq_ok.1 hread
      obtain ⟨cs', hcs, hread⟩ := bind_eq_ok.1 hread
      cases pure_eq_ok.1 hread
      obtain ⟨n, hdepth, hwithin⟩ := Json.fields_within hfs
      obtain ⟨v, -, hv⟩ := Json.Field.value_of_required hwithin hk
      obtain ⟨hfit, hle⟩ := hlist.required hwithin hcs
      refine ⟨(Json.readNat_eq_ok.1 hv).2, hfit, ?_⟩
      rw [hdepth, Nat.succ_min_succ]
      exact Nat.succ_le_succ hle

/-- A condition that was read can be written and read back. -/
theorem confines (settled : Bool) (room : Nat) :
    Confines (read settled) toJson Rereadable room := by
  induction room using Nat.strongRecOn with
  | _ room ih =>
  intro j c hread
  cases room with
  | zero => exact absurd hread read_zero_ne_ok
  | succ room =>
      have hbelow : ∀ room' < room, Confines (read settled) toJson Rereadable room' :=
        fun room' hlt => ih room' (Nat.lt_succ_of_lt hlt)
      rw [read_succ] at hread
      obtain ⟨v, hv, hread⟩ := bind_eq_ok.1 hread
      split at hread
      · obtain ⟨k, hk, rfl⟩ := map_eq_ok.1 hread
        obtain ⟨content, hdepth, hk⟩ := Json.variant_content hv hk
        obtain ⟨-, hle⟩ := Comparison.confines settled room content k hk
        rw [hdepth, Nat.succ_min_succ, toJson, Json.depth_object_single]
        exact ⟨rereadable_compare k, Nat.succ_le_succ hle⟩
      · obtain ⟨d, hd, rfl⟩ := map_eq_ok.1 hread
        obtain ⟨content, hdepth, hd⟩ := Json.variant_content hv hd
        obtain ⟨hfit, hle⟩ := ih room (Nat.lt_succ_self _) content d hd
        rw [hdepth, Nat.succ_min_succ, toJson, Json.depth_object_single]
        exact ⟨hfit, Nat.succ_le_succ hle⟩
      · obtain ⟨cs, hcs, rfl⟩ := map_eq_ok.1 hread
        obtain ⟨content, hdepth, hcs⟩ := Json.variant_content hv hcs
        obtain ⟨hfit, hle⟩ := Confines.list _ hbelow content cs hcs
        rw [hdepth, Nat.succ_min_succ, depth_toJson_all]
        exact ⟨rereadable_atLeast.2 ⟨.inl rfl, hfit⟩, Nat.succ_le_succ hle⟩
      · obtain ⟨cs, hcs, rfl⟩ := map_eq_ok.1 hread
        obtain ⟨content, hdepth, hcs⟩ := Json.variant_content hv hcs
        obtain ⟨hfit, hle⟩ := Confines.list _ hbelow content cs hcs
        rw [hdepth, Nat.succ_min_succ, depth_toJson_any]
        exact ⟨rereadable_atLeast.2 ⟨.inr (.inl rfl), hfit⟩, Nat.succ_le_succ hle⟩
      · obtain ⟨⟨k, cs⟩, hgroup, hrest⟩ := bind_eq_ok.1 hread
        obtain ⟨content, hdepth, hgroup⟩ := Json.variant_content hv hgroup
        obtain ⟨hk, hfit, hle⟩ := readGroup_confines hbelow hgroup
        dsimp only at hrest
        split at hrest
        · next hlength =>
          obtain rfl := pure_eq_ok.1 hrest
          rw [hdepth, Nat.succ_min_succ]
          exact ⟨rereadable_atLeast.2 ⟨.inr (.inr ⟨hlength, hk⟩), hfit⟩,
            Nat.le_trans (depth_toJson_atLeast_le k cs) (Nat.succ_le_succ hle)⟩
        · exact absurd hrest throw_ne_ok

end Condition

end Consult
