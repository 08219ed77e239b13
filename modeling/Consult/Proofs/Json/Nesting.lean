import Consult.Proofs.Json.Compact

/-!
# Nesting

How deep the containers of a value are nested, and what that means for reading it
as a whole: a canonical value can be settled exactly if it is nested no deeper
than there is room.

## Main results

* `depth_array_le`, `depth_object_le` — a container adds one level to what it holds.
* `canSettle_iff` — when a canonical value can be read as a whole.
-/

namespace Consult.Json

/-! ## Depth -/

mutual

/-- The greatest number of containers that are open inside one another. -/
def depth : Json → Nat
  | .array items => depthItems items + 1
  | .object members => depthMembers members + 1
  | _ => 0
termination_by structural j => j

/-- The greatest depth of an item. -/
def depthItems : List Json → Nat
  | [] => 0
  | item :: items => max item.depth (depthItems items)
termination_by structural items => items

/-- The greatest depth of a member's value. -/
def depthMembers : List (Option String × Json) → Nat
  | [] => 0
  | (_, value) :: members => max value.depth (depthMembers members)
termination_by structural members => members

end

@[simp] theorem depth_null : null.depth = 0 := rfl

@[simp] theorem depth_bool (value : Bool) : (bool value).depth = 0 := rfl

@[simp] theorem depth_text (s : String) : (text s).depth = 0 := rfl

@[simp] theorem depth_ofInt (n : Int) : (ofInt n).depth = 0 := rfl

@[simp] theorem depth_ofNat (n : Nat) : (ofNat n).depth = 0 := rfl

theorem depthItems_le {items : List Json} {n : Nat} :
    depthItems items ≤ n ↔ ∀ item ∈ items, item.depth ≤ n := by
  induction items with
  | nil => simp [depthItems]
  | cons item items ih => rw [depthItems, Nat.max_le, ih, List.forall_mem_cons]

theorem depthMembers_le {members : List (Option String × Json)} {n : Nat} :
    depthMembers members ≤ n ↔ ∀ m ∈ members, m.2.depth ≤ n := by
  induction members with
  | nil => simp [depthMembers]
  | cons m members ih => rw [depthMembers, Nat.max_le, ih, List.forall_mem_cons]

/-- An array adds one level to its items. -/
@[simp] theorem depth_array_le {items : List Json} {n : Nat} :
    (array items).depth ≤ n + 1 ↔ ∀ item ∈ items, item.depth ≤ n := by
  rw [depth, Nat.add_le_add_iff_right, depthItems_le]

/-- An object adds one level to its members. -/
@[simp] theorem depth_object_le {members : List (Option String × Json)} {n : Nat} :
    (object members).depth ≤ n + 1 ↔ ∀ m ∈ members, m.2.depth ≤ n := by
  rw [depth, Nat.add_le_add_iff_right, depthMembers_le]

@[simp] theorem depth_object_single (m : Option String × Json) :
    (object [m]).depth = m.2.depth + 1 := by
  simp [depth, depthMembers]

@[simp] theorem depth_array_ne_zero (items : List Json) : (array items).depth ≠ 0 :=
  Nat.succ_ne_zero _

@[simp] theorem depth_object_ne_zero (members : List (Option String × Json)) :
    (object members).depth ≠ 0 :=
  Nat.succ_ne_zero _

theorem depth_lt_of_mem_object {members : List (Option String × Json)}
    {m : Option String × Json} (h : m ∈ members) :
    m.2.depth < (object members).depth := by
  have hle := depthMembers_le.1 (Nat.le_refl (depthMembers members)) m h
  rw [depth]
  omega

/-! ## Settling -/

theorem canSettleItems_iff {items : List Json} {room : Nat} :
    canSettleItems items room = true ↔ ∀ item ∈ items, canSettle item room = true := by
  induction items with
  | nil => simp [canSettleItems]
  | cons item items ih => simp [canSettleItems, ih]

theorem canSettleMembers_iff {members : List (Option String × Json)} {room : Nat} :
    canSettleMembers members room = true ↔
      ∀ m ∈ members, m.1.isSome = true ∧ canSettle m.2 room = true := by
  induction members with
  | nil => simp [canSettleMembers]
  | cons m members ih => simp [canSettleMembers, ih]

/-- A canonical value can be read as a whole if it is nested no deeper than there is
room. -/
theorem canSettle_iff {j : Json} (h : j.Canonical) :
    ∀ {room : Nat}, canSettle j room = true ↔ j.depth ≤ room := by
  induction h with
  | null => simp [canSettle]
  | bool value => simp [canSettle]
  | integer h =>
      intro room
      have hfinite := isFinite_writeInt h
      simp [canSettle, ofInt, depth, hfinite]
  | text s => simp [canSettle, text, depth]
  | @array items _ ih =>
      intro room
      cases room with
      | zero => simp [canSettle]
      | succ room =>
          have hitems : canSettle (.array items) (room + 1) =
              canSettleItems items room := by
            simp [canSettle]
          rw [hitems, canSettleItems_iff, depth_array_le]
          exact forall₂_congr fun item hitem => ih item hitem
  | @object members hkeys _ ih =>
      intro room
      cases room with
      | zero => simp [canSettle]
      | succ room =>
          have hmembers : canSettle (.object members) (room + 1) =
              canSettleMembers members room := by
            simp [canSettle]
          rw [hmembers, canSettleMembers_iff, depth_object_le]
          refine forall₂_congr fun m hm => ?_
          rw [ih m hm]
          exact and_iff_right (hkeys m hm)

end Consult.Json
