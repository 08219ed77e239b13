import Consult.Proofs.Json.Reading

/-!
# Readers and writers that belong together

A reader and a writer belong together if two things hold. What was written is read
back, provided it fits and there is room for it; and whatever else was read, no more
nesting is needed to write it. Then reading undoes writing for all values that
were ever read. Both are stated for so much room, since the readers of nested values
are defined by recursion on it.

## Main results

* `Rereads.list`, `Rereads.map`, `Confines.list`, `Confines.map` — lists and maps.
* `Confines.required`, `Confines.withDefault` — the fields of a record.
* `Confines.reread` — a document that was read is read again from its canonical text.
-/

namespace Consult.Json

open Reading (bind_eq_ok pure_eq_ok throw_ne_ok)

variable {α : Type} {read : Nat → Json → Reading α} {write : α → Json} {fit : α → Prop}
    {room : Nat}

/-- What was written is read back exactly if it fits and there is room. -/
def Rereads (read : Nat → Json → Reading α) (write : α → Json) (fit : α → Prop)
    (room : Nat) : Prop :=
  ∀ x y, read room (write x) = .ok y ↔ y = x ∧ fit x ∧ (write x).depth ≤ room

/-- What was read fits, and is written with no more nesting than there was or was room
for. -/
def Confines (read : Nat → Json → Reading α) (write : α → Json) (fit : α → Prop)
    (room : Nat) : Prop :=
  ∀ j x, read room j = .ok x → fit x ∧ (write x).depth ≤ min room j.depth

/-! ## Texts -/

theorem rereads_text : Rereads (fun _ => readText) text (fun _ => True) room := by
  intro x y
  simp [eq_comm]

theorem confines_text : Confines (fun _ => readText) text (fun _ => True) room := by
  intro j x _
  simp

/-! ## Lists -/

/-- A list is read back if its items are. -/
theorem Rereads.list (room : Nat) (h : ∀ room' < room, Rereads read write fit room') :
    Rereads (readList read) (fun xs => .array (xs.map write))
      (fun xs => ∀ x ∈ xs, fit x) room := by
  intro xs ys
  cases room with
  | zero => simp [readList, throw_ne_ok]
  | succ room =>
      have hitem : ∀ x ∈ xs, ∀ y,
          read room (write x) = .ok y ↔ y = x ∧ fit x ∧ (write x).depth ≤ room :=
        fun x _ y => h room (Nat.lt_succ_self _) x y
      rw [readList, readItems_map hitem]
      simp [forall_and]

/-- The items of a list lie inside it. -/
theorem readList_values {j : Json} {xs : List α} (h : readList read room j = .ok xs) :
    ∃ room' n, room = room' + 1 ∧ j.depth = n + 1 ∧
      ∀ x ∈ xs, ∃ v, v.depth ≤ n ∧ read room' v = .ok x := by
  obtain ⟨room', rfl, hitems⟩ := readList_eq_ok.1 h
  obtain ⟨items, rfl, hvalues⟩ := readItems_values hitems
  refine ⟨room', depthItems items, rfl, rfl, fun x hx => ?_⟩
  obtain ⟨v, hv, hread⟩ := hvalues x hx
  exact ⟨v, depthItems_le.1 (Nat.le_refl _) v hv, hread⟩

/-- A list is written with no more nesting if its items are. -/
theorem Confines.list (room : Nat) (h : ∀ room' < room, Confines read write fit room') :
    Confines (readList read) (fun xs => .array (xs.map write))
      (fun xs => ∀ x ∈ xs, fit x) room := by
  intro j xs hread
  obtain ⟨room, n, rfl, hdepth, hvalues⟩ := readList_values hread
  have hitems : ∀ x ∈ xs, fit x ∧ (write x).depth ≤ min room n := by
    intro x hx
    obtain ⟨v, hv, hread⟩ := hvalues x hx
    have hx := h room (Nat.lt_succ_self _) v x hread
    exact ⟨hx.1, by omega⟩
  refine ⟨fun x hx => (hitems x hx).1, ?_⟩
  rw [hdepth, Nat.succ_min_succ, depth_array_le, List.forall_mem_map]
  exact fun x hx => (hitems x hx).2

/-! ## Maps -/

/-- The JSON form of a map. -/
def mapToJson (write : α → Json) (m : KeyMap α) : Json :=
  .object (m.entries.map fun e => member e.1 (write e.2))

theorem canonical_mapToJson {m : KeyMap α} :
    (mapToJson write m).Canonical ↔ ∀ e ∈ m.entries, (write e.2).Canonical := by
  rw [mapToJson, canonical_object, List.forall_mem_map]
  simp

theorem depth_mapToJson_le {m : KeyMap α} {n : Nat} :
    (mapToJson write m).depth ≤ n + 1 ↔ ∀ e ∈ m.entries, (write e.2).depth ≤ n := by
  rw [mapToJson, depth_object_le, List.forall_mem_map]
  simp

/-- A map is read back if its values are. -/
theorem Rereads.map (room : Nat) (h : ∀ room' < room, Rereads read write fit room') :
    Rereads (readMap read) (mapToJson write)
      (fun m => ∀ e ∈ m.entries, fit e.2) room := by
  intro m m'
  cases room with
  | zero => simp [readMap, mapToJson, throw_ne_ok]
  | succ room =>
      have hentry : ∀ e ∈ m.entries, ∀ y,
          read room (write e.2) = .ok y ↔ y = e.2 ∧ fit e.2 ∧
          (write e.2).depth ≤ room :=
        fun e _ => h room (Nat.lt_succ_self _) e.2
      rw [depth_mapToJson_le, mapToJson,
        readMap_object (P := fun x => fit x ∧ (write x).depth ≤ room) hentry]
      simp only [forall_and]

/-- A map is written with no more nesting if its values are. -/
theorem Confines.map (room : Nat) (h : ∀ room' < room, Confines read write fit room') :
    Confines (readMap read) (mapToJson write)
      (fun m => ∀ e ∈ m.entries, fit e.2) room := by
  intro j m hread
  obtain ⟨room, members, rfl, rfl, hentries⟩ := readMap_entries hread
  have hvalues : ∀ e ∈ m.entries, fit e.2 ∧
      (write e.2).depth ≤ min room (depthMembers members) := by
    intro e he
    obtain ⟨v, hv, hread⟩ := hentries e he
    have hdepth : v.depth ≤ _ := depthMembers_le.1 (Nat.le_refl _) _ hv
    have he := h room (Nat.lt_succ_self _) v e.2 hread
    exact ⟨he.1, by omega⟩
  refine ⟨fun e he => (hvalues e he).1, ?_⟩
  have hmin : min (room + 1) (object members).depth =
      min room (depthMembers members) + 1 :=
    Nat.succ_min_succ _ _
  rw [hmin, depth_mapToJson_le]
  exact fun e he => (hvalues e he).2

/-! ## Fields -/

/-- What was read for a field lies inside the record. -/
theorem Confines.required (h : Confines read write fit room) {fs : Fields}
    {n index : Nat} {name : String} {x : α} (hfs : fs.Within n)
    (hx : (fs.field index name (read room)).required fs = .ok x) :
    fit x ∧ (write x).depth ≤ min room n := by
  obtain ⟨v, hv, hread⟩ := Field.value_of_required hfs hx
  have hx := h v x hread
  exact ⟨hx.1, by omega⟩

/-- What was read for a field that may be left out lies inside the
record, or is the default. -/
theorem Confines.withDefault (h : Confines read write fit room) {fs : Fields}
    {n index : Nat} {name : String} {default x : α} (hfs : fs.Within n)
    (hx : (fs.field index name (read room)).withDefault default = .ok x) :
    (fit x ∧ (write x).depth ≤ min room n) ∨ x = default := by
  refine (Field.value_of_withDefault hfs hx).imp_left fun ⟨v, hv, hread⟩ => ?_
  have hx := h v x hread
  exact ⟨hx.1, by omega⟩

/-! ## Documents -/

/-- What was read from a text is the value of its root. -/
theorem read_of_readDocument {text : String} {x : α}
    (h : readDocument read text = .ok x) :
    read maxDepth (Document.parse text).root = .ok x := by
  obtain ⟨y, hy, hcomplete⟩ := bind_eq_ok.1 h
  split at hcomplete
  · rwa [pure_eq_ok.1 hcomplete] at hy
  · exact absurd hcomplete throw_ne_ok

/-- A document that was read is read again from its canonical text,
which is nested no deeper. -/
theorem Confines.reread (hconfines : Confines read write fit maxDepth)
    (hrereads : Rereads read write fit maxDepth) {text : String} {x : α}
    (hcanonical : fit x → (write x).Canonical) (h : readDocument read text = .ok x) :
    readDocument read (write x).compact = .ok x ∧ fit x ∧
      (write x).depth ≤ (Document.parse text).root.depth := by
  obtain ⟨hfit, hdepth⟩ := hconfines _ _ (read_of_readDocument h)
  rw [readDocument_compact read (hcanonical hfit), hrereads]
  exact ⟨⟨rfl, hfit, Nat.le_trans hdepth (Nat.min_le_left _ _)⟩, hfit,
    Nat.le_trans hdepth (Nat.min_le_right _ _)⟩

end Consult.Json
