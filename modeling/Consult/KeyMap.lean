/-!
# Maps keyed by text, in key order

A `KeyMap` holds at most one value per key and lists its entries in ascending
order of their keys (by code point). The order is part of the type, so two
maps with the same entries are equal, and a written map has one form only.

## Main results

* `get?_insert` — inserting changes the value at its own key and no other.
* `ext_get?` — a map is determined by what `get?` answers.
* `insertIfNew_of_get?` — a key that has a value keeps it.
-/

namespace Consult

/-- A finite map from text to `α`, its entries in strictly ascending key order. -/
structure KeyMap (α : Type) where
  entries : List (String × α)
  ascending : entries.Pairwise (fun a b => a.1 < b.1) := by simp

namespace KeyMap

variable {α β : Type}

/-- Two maps with the same entries are the same map. -/
theorem ext_entries {m m' : KeyMap α} (h : m.entries = m'.entries) : m = m' := by
  cases m; cases m'; simp_all

instance [DecidableEq α] : DecidableEq (KeyMap α) := fun m m' =>
  decidable_of_iff (m.entries = m'.entries) ⟨ext_entries, fun h => h ▸ rfl⟩

/-- The map without entries. -/
def empty : KeyMap α := ⟨[], .nil⟩

instance : Inhabited (KeyMap α) := ⟨empty⟩

/-- Number of entries. -/
def size (m : KeyMap α) : Nat := m.entries.length

/-- The keys, in ascending order. -/
def keys (m : KeyMap α) : List String := m.entries.map (·.1)

/-- The value of the first entry for `key`. -/
def lookup (key : String) : List (String × α) → Option α
  | [] => none
  | e :: rest => if key = e.1 then some e.2 else lookup key rest

/-- The value stored under `key`. -/
def get? (m : KeyMap α) (key : String) : Option α := lookup key m.entries

/-- Whether `key` has a value. -/
def contains (m : KeyMap α) (key : String) : Bool := (m.get? key).isSome

/-! ## Insertion -/

/-- Puts `value` under `key` at its place in an ascending list of entries. -/
def insertEntry (key : String) (value : α) : List (String × α) → List (String × α)
  | [] => [(key, value)]
  | e :: rest =>
    if key < e.1 then (key, value) :: e :: rest
    else if key = e.1 then (key, value) :: rest
    else e :: insertEntry key value rest

theorem mem_insertEntry {key : String} {value : α} {l : List (String × α)}
    {x : String × α} (h : x ∈ insertEntry key value l) : x = (key, value) ∨ x ∈ l := by
  induction l with
  | nil => simpa [insertEntry] using h
  | cons e rest ih =>
    simp only [insertEntry] at h
    split at h
    · simpa using h
    · split at h
      · rcases List.mem_cons.1 h with h | h
        · exact .inl h
        · exact .inr (List.mem_cons_of_mem _ h)
      · rcases List.mem_cons.1 h with h | h
        · exact .inr (h ▸ List.mem_cons_self)
        · exact (ih h).imp id (List.mem_cons_of_mem _)

private theorem lt_of_not_lt_of_ne {a b : String} (h : ¬a < b) (hne : a ≠ b) : b < a :=
  Std.lt_of_le_of_ne (String.not_lt.1 h) (Ne.symm hne)

theorem pairwise_insertEntry (key : String) (value : α) {l : List (String × α)}
    (h : l.Pairwise (fun a b => a.1 < b.1)) :
    (insertEntry key value l).Pairwise (fun a b => a.1 < b.1) := by
  induction l with
  | nil => simp [insertEntry]
  | cons e rest ih =>
    obtain ⟨he, hrest⟩ := List.pairwise_cons.1 h
    simp only [insertEntry]
    split
    · next hlt =>
      refine List.pairwise_cons.2 ⟨fun x hx => ?_, h⟩
      rcases List.mem_cons.1 hx with rfl | hx
      · exact hlt
      · exact String.lt_trans hlt (he x hx)
    · next hlt =>
      split
      · next heq => exact List.pairwise_cons.2 ⟨fun x hx => heq ▸ he x hx, hrest⟩
      · next hne =>
        refine List.pairwise_cons.2 ⟨fun x hx => ?_, ih hrest⟩
        rcases mem_insertEntry hx with rfl | hx
        · exact lt_of_not_lt_of_ne hlt hne
        · exact he x hx

/-- The map with `value` under `key`, in place of any earlier value there. -/
def insert (m : KeyMap α) (key : String) (value : α) : KeyMap α :=
  ⟨insertEntry key value m.entries, pairwise_insertEntry key value m.ascending⟩

/-- The map with `value` under `key`, unless `key` has a value already. -/
def insertIfNew (m : KeyMap α) (key : String) (value : α) : KeyMap α :=
  if m.contains key then m else m.insert key value

/-- The map of the listed entries; of two values for one key the later one counts. -/
def ofList (entries : List (String × α)) : KeyMap α :=
  entries.foldl (fun m e => m.insert e.1 e.2) empty

/-! ## What a map answers -/

@[simp] theorem get?_empty (key : String) : (empty : KeyMap α).get? key = none := rfl

private theorem lookup_insertEntry (key : String) (value : α) (l : List (String × α))
    (other : String) :
    lookup other (insertEntry key value l) =
      if other = key then some value else lookup other l := by
  induction l with
  | nil => rfl
  | cons e rest ih =>
    simp only [insertEntry]
    split
    · rfl
    · split
      · next heq => subst heq; by_cases ho : other = e.1 <;> simp [lookup, ho]
      · next hne =>
        by_cases ho : other = e.1
        · simp [lookup, ho, Ne.symm hne]
        · simp [lookup, ho, ih]

/-- Inserting changes the value at its own key and no other. -/
theorem get?_insert (m : KeyMap α) (key : String) (value : α) (other : String) :
    (m.insert key value).get? other =
      if other = key then some value else m.get? other :=
  lookup_insertEntry key value m.entries other

@[simp] theorem get?_insert_self (m : KeyMap α) (key : String) (value : α) :
    (m.insert key value).get? key = some value := by
  simp [get?_insert]

theorem get?_insert_of_ne (m : KeyMap α) {key other : String} (value : α)
    (h : other ≠ key) :
    (m.insert key value).get? other = m.get? other := by
  simp [get?_insert, h]

/-- A key that has a value keeps it. -/
theorem insertIfNew_of_get? {m : KeyMap α} {key : String} {old : α} (value : α)
    (h : m.get? key = some old) : m.insertIfNew key value = m := by
  simp [insertIfNew, contains, h]

theorem insertIfNew_of_get?_none {m : KeyMap α} {key : String} (value : α)
    (h : m.get? key = none) : m.insertIfNew key value = m.insert key value := by
  simp [insertIfNew, contains, h]

private theorem mem_of_lookup {key : String} {value : α} {l : List (String × α)}
    (h : lookup key l = some value) : (key, value) ∈ l := by
  induction l with
  | nil => simp [lookup] at h
  | cons e rest ih =>
    rw [lookup] at h
    split at h
    · next heq =>
      subst heq
      exact List.mem_cons.2 (.inl (by rw [← Option.some.inj h]))
    · exact List.mem_cons_of_mem _ (ih h)

private theorem lookup_of_mem {key : String} {value : α} {l : List (String × α)}
    (h : l.Pairwise (fun a b => a.1 < b.1)) (hm : (key, value) ∈ l) :
    lookup key l = some value := by
  induction l with
  | nil => simp at hm
  | cons e rest ih =>
    obtain ⟨he, hrest⟩ := List.pairwise_cons.1 h
    rcases List.mem_cons.1 hm with rfl | hm
    · simp [lookup]
    · have hne : key ≠ e.1 := fun heq => String.lt_irrefl _ (heq ▸ he _ hm)
      rw [lookup, if_neg hne, ih hrest hm]

/-- A key's value is read off its entry. -/
theorem mem_entries_iff {m : KeyMap α} {key : String} {value : α} :
    (key, value) ∈ m.entries ↔ m.get? key = some value :=
  ⟨lookup_of_mem m.ascending, mem_of_lookup⟩

/-- The keys of a map are those that have a value. -/
theorem mem_keys_iff {m : KeyMap α} {key : String} :
    key ∈ m.keys ↔ ∃ value, m.get? key = some value := by
  simp only [keys, List.mem_map]
  constructor
  · rintro ⟨⟨k, v⟩, hm, rfl⟩
    exact ⟨v, mem_entries_iff.1 hm⟩
  · rintro ⟨v, hv⟩
    exact ⟨(key, v), mem_entries_iff.2 hv, rfl⟩

/-- A map is determined by what `get?` answers. -/
theorem ext_get? {m m' : KeyMap α} (h : ∀ key, m.get? key = m'.get? key) : m = m' := by
  apply ext_entries
  refine List.Perm.eq_of_pairwise
    (fun a b _ _ hab hba => ?_) m.ascending m'.ascending ?_
  · exact absurd hab (String.lt_asymm hba)
  · have nodup : ∀ n : KeyMap α, n.entries.Nodup := fun n =>
      n.ascending.imp fun {a b} hlt (heq : a = b) => String.lt_irrefl b.1 (heq ▸ hlt)
    rw [List.perm_ext_iff_of_nodup (nodup m) (nodup m')]
    rintro ⟨k, v⟩
    rw [mem_entries_iff, mem_entries_iff, h k]

end KeyMap

end Consult
