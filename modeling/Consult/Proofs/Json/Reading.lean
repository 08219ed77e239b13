import Consult.Json.Reading
import Consult.Proofs.Json.Nesting
import Mathlib.Data.List.Forall2

/-!
# What readers accept

For each kind of value that a reader is made of, this file says when it succeeds
and with what.  Two questions are asked of it later: whether what was written is
read back, and what may have been written if something was read.  For the second
one it matters that all parts of a record are nested less deeply than the record.

## Main results

* `readItems_eq_ok`, `readMap_entries` — lists and maps.
* `fields_within`, `variant_content` — the parts of a record or a choice lie inside it.
* `checkMembers_member` — a member that is read, and read once, has no fault.
-/

namespace Consult

/-! ## Sequencing -/

namespace Json.Reading

variable {α β : Type}

@[simp] theorem ok_bind (a : α) (f : α → Reading β) :
    ((.ok a : Reading α) >>= f) = f a :=
  rfl

@[simp] theorem ok_map (a : α) (f : α → β) : (f <$> (.ok a : Reading α)) = .ok (f a) :=
  rfl

@[simp] theorem pure_ok (a : α) : (pure a : Reading α) = .ok a := rfl

theorem bind_eq_ok {x : Reading α} {f : α → Reading β} {b : β} :
    (x >>= f) = .ok b ↔ ∃ a, x = .ok a ∧ f a = .ok b := by
  cases x with
  | error flaw => simp [bind, Except.bind]
  | ok a => simp [bind, Except.bind]

theorem map_eq_ok {x : Reading α} {f : α → β} {b : β} :
    (f <$> x) = .ok b ↔ ∃ a, x = .ok a ∧ f a = b := by
  cases x with
  | error flaw => simp [Functor.map, Except.map]
  | ok a => simp [Functor.map, Except.map]

/-- What is made of a value that can be `x` only. -/
theorem map_eq_ok_iff {r : Reading α} {f : α → β} {x : α} {P : Prop}
    (h : ∀ a, r = .ok a ↔ a = x ∧ P) {b : β} : f <$> r = .ok b ↔ b = f x ∧ P := by
  rw [map_eq_ok]
  constructor
  · rintro ⟨a, ha, rfl⟩
    obtain ⟨rfl, hP⟩ := (h a).1 ha
    exact ⟨rfl, hP⟩
  · rintro ⟨rfl, hP⟩
    exact ⟨x, (h x).2 ⟨rfl, hP⟩, rfl⟩

theorem pure_eq_ok {a b : α} : (pure a : Reading α) = .ok b ↔ a = b := by
  simp [pure, Except.pure]

theorem throw_ne_ok {flaw : Flaw} {a : α} : (throw flaw : Reading α) ≠ .ok a := by
  simp [throw, throwThe, MonadExceptOf.throw]

end Json.Reading

namespace KeyMap

variable {α : Type}

/-- An entry whose key is beyond all others comes last. -/
theorem insertEntry_of_forall_lt {key : String} {value : α}
    {entries : List (String × α)} (h : ∀ e ∈ entries, e.1 < key) :
    insertEntry key value entries = entries ++ [(key, value)] := by
  induction entries with
  | nil => rfl
  | cons e entries ih =>
      have hlt := h e List.mem_cons_self
      have hne : key ≠ e.1 := fun heq => String.lt_irrefl _ (heq ▸ hlt)
      rw [insertEntry, if_neg (String.lt_asymm hlt), if_neg hne,
        ih fun e he => h e (List.mem_cons_of_mem _ he)]
      rfl

/-- Entries in ascending order make up a map one by one. -/
theorem foldl_insert_entries (entries : List (String × α)) :
    ∀ (m m' : KeyMap α), m'.entries = m.entries ++ entries →
      entries.foldl (fun m e => m.insert e.1 e.2) m = m' := by
  induction entries with
  | nil =>
      intro m m' h
      exact ext_entries (by simpa using h.symm)
  | cons e entries ih =>
      intro m m' h
      have hascending := m'.ascending
      rw [h, List.pairwise_append] at hascending
      have hlast : ∀ e' ∈ m.entries, e'.1 < e.1 := fun e' he' =>
        hascending.2.2 e' he' e List.mem_cons_self
      refine ih _ _ ?_
      show m'.entries = insertEntry e.1 e.2 m.entries ++ entries
      rw [insertEntry_of_forall_lt hlast, List.append_assoc]
      exact h

end KeyMap

namespace Json

open Reading (bind_eq_ok map_eq_ok pure_eq_ok throw_ne_ok)

variable {α : Type}

/-! ## Plain values -/

theorem readInt_eq_ok {lo hi n : Int} {j : Json} :
    readInt lo hi j = .ok n ↔ j.toInt? = some n ∧ lo ≤ n ∧ n ≤ hi := by
  unfold readInt
  cases hint : j.toInt? with
  | none => simp [throw_ne_ok]
  | some m =>
      by_cases hrange : lo ≤ m ∧ m ≤ hi
      · simp only [Bool.and_eq_true, decide_eq_true_eq, hrange, and_self, if_true,
          pure_eq_ok, Option.some.injEq]
        constructor
        · rintro rfl
          exact ⟨rfl, hrange⟩
        · exact fun h => h.1
      · simp only [Bool.and_eq_true, decide_eq_true_eq, hrange, if_false, throw_ne_ok,
          Option.some.injEq, false_iff]
        rintro ⟨rfl, h⟩
        exact hrange h

theorem readNat_eq_ok {n : Nat} {j : Json} :
    readNat j = .ok n ↔ j.toInt? = some (n : Int) ∧ n < UInt64.size := by
  unfold readNat
  simp only [map_eq_ok, readInt_eq_ok]
  have hsize : UInt64.size = 18446744073709551616 := rfl
  constructor
  · rintro ⟨i, ⟨hint, hlo, hhi⟩, rfl⟩
    refine ⟨by rw [hint, Int.toNat_of_nonneg hlo], ?_⟩
    omega
  · rintro ⟨hint, hlt⟩
    exact ⟨n, ⟨hint, by omega, by omega⟩, by simp⟩

/-- A natural number is read back if it fits into 64 bits. -/
theorem readNat_ofNat {n m : Nat} :
    readNat (.ofNat n) = .ok m ↔ m = n ∧ n < UInt64.size := by
  rw [readNat_eq_ok, ofNat_eq_ofInt, toInt?_ofInt]
  simp only [Option.some.injEq, Int.natCast_inj]
  constructor
  · rintro ⟨rfl, h⟩
    exact ⟨rfl, h⟩
  · rintro ⟨rfl, h⟩
    exact ⟨rfl, h⟩

/-! ## Lists -/

theorem mapM_eq_ok {read : Json → Reading α} {items : List Json} :
    ∀ {xs : List α}, items.mapM read = .ok xs ↔
      List.Forall₂ (fun j x => read j = .ok x) items xs := by
  induction items with
  | nil =>
      intro xs
      rw [List.mapM_nil, pure_eq_ok, List.forall₂_nil_left_iff]
      exact eq_comm
  | cons item items ih =>
      intro xs
      simp only [List.mapM_cons, bind_eq_ok, pure_eq_ok, ih, List.forall₂_cons_left_iff]
      constructor
      · rintro ⟨x, hx, xs, hxs, rfl⟩
        exact ⟨x, xs, hx, hxs, rfl⟩
      · rintro ⟨x, xs, hx, hxs, rfl⟩
        exact ⟨x, hx, xs, hxs, rfl⟩

/-- The items of an array are read one by one. -/
theorem readItems_eq_ok {read : Json → Reading α} {j : Json} {xs : List α} :
    readItems read j = .ok xs ↔
      ∃ items, j = .array items ∧
        List.Forall₂ (fun j x => read j = .ok x) items xs := by
  cases j with
  | array items => simp [readItems, mapM_eq_ok]
  | null => simp [readItems, throw_ne_ok]
  | bool value => simp [readItems, throw_ne_ok]
  | number spelling => simp [readItems, throw_ne_ok]
  | string value => simp [readItems, throw_ne_ok]
  | object members => simp [readItems, throw_ne_ok]
  | broken => simp [readItems, throw_ne_ok]

/-- Whatever was read into a list is there in the array. -/
theorem readItems_values {read : Json → Reading α} {j : Json} {xs : List α}
    (h : readItems read j = .ok xs) :
    ∃ items, j = .array items ∧ ∀ x ∈ xs, ∃ item ∈ items, read item = .ok x := by
  obtain ⟨items, rfl, hall⟩ := readItems_eq_ok.1 h
  refine ⟨items, rfl, ?_⟩
  clear h
  induction hall with
  | nil => simp
  | cons hread _ ih =>
      rw [List.forall_mem_cons]
      refine ⟨⟨_, List.mem_cons_self, hread⟩, fun x hx => ?_⟩
      obtain ⟨item, hitem, hread⟩ := ih x hx
      exact ⟨item, List.mem_cons_of_mem _ hitem, hread⟩

/-- A list is read back if its items are. -/
theorem readItems_map {read : Json → Reading α} {write : α → Json} {P : α → Prop}
    {xs ys : List α} (h : ∀ x ∈ xs, ∀ y, read (write x) = .ok y ↔ y = x ∧ P x) :
    readItems read (.array (xs.map write)) = .ok ys ↔ ys = xs ∧ ∀ x ∈ xs, P x := by
  simp only [readItems, mapM_eq_ok]
  induction xs generalizing ys with
  | nil => simp
  | cons x xs ih =>
      have ih (ys : List α) := @ih ys fun x hx => h x (List.mem_cons_of_mem _ hx)
      rw [List.map_cons, List.forall₂_cons_left_iff, List.forall_mem_cons]
      constructor
      · rintro ⟨y, ys, hy, hys, rfl⟩
        obtain ⟨rfl, hx⟩ := (h x List.mem_cons_self y).1 hy
        obtain ⟨rfl, hxs⟩ := (ih ys).1 hys
        exact ⟨rfl, hx, hxs⟩
      · rintro ⟨rfl, hx, hxs⟩
        exact ⟨x, xs, (h x List.mem_cons_self x).2 ⟨rfl, hx⟩, (ih xs).2 ⟨rfl, hxs⟩, rfl⟩

theorem readList_eq_ok {read : Nat → Json → Reading α} {room : Nat} {j : Json}
    {xs : List α} :
    readList read room j = .ok xs ↔ ∃ room', room = room' + 1 ∧
      readItems (read room') j = .ok xs := by
  cases room with
  | zero => simp [readList, throw_ne_ok]
  | succ room => simp [readList]

/-! ## Maps -/

/-- An entry that was read comes from a member. -/
theorem readMembers_entries {read : Json → Reading α}
    {members : List (Option String × Json)} :
    ∀ {m m' : KeyMap α}, readMembers read m members = .ok m' → ∀ e ∈ m'.entries,
      e ∈ m.entries ∨ ∃ value, (some e.1, value) ∈ members ∧ read value = .ok e.2 := by
  induction members with
  | nil =>
      intro m m' h e he
      rw [readMembers, pure_eq_ok] at h
      exact .inl (h ▸ he)
  | cons member members ih =>
      intro m m' h e he
      obtain ⟨_ | key, value⟩ := member
      · exact absurd h throw_ne_ok
      · obtain ⟨a, ha, hrest⟩ := bind_eq_ok.1 h
        rcases ih hrest e he with hold | ⟨v, hv, hread⟩
        · rcases KeyMap.mem_insertEntry hold with rfl | hold
          · exact .inr ⟨value, List.mem_cons_self, ha⟩
          · exact .inl hold
        · exact .inr ⟨v, List.mem_cons_of_mem _ hv, hread⟩

/-- A map is an object, and its entries come from members. -/
theorem readMap_entries {read : Nat → Json → Reading α} {room : Nat} {j : Json}
    {m : KeyMap α} (h : readMap read room j = .ok m) :
    ∃ room' members, room = room' + 1 ∧ j = .object members ∧
      ∀ e ∈ m.entries, ∃ value, (some e.1, value) ∈ members ∧
        read room' value = .ok e.2 := by
  unfold readMap at h
  split at h
  · next room' members =>
    refine ⟨room', members, rfl, rfl, fun e he => ?_⟩
    exact (readMembers_entries h e he).resolve_left List.not_mem_nil
  · exact absurd h throw_ne_ok

theorem readMembers_map {read : Json → Reading α} {write : α → Json} {P : α → Prop}
    {entries : List (String × α)}
    (h : ∀ e ∈ entries, ∀ y, read (write e.2) = .ok y ↔ y = e.2 ∧ P e.2) :
    ∀ {m m' : KeyMap α},
      readMembers read m (entries.map fun e => member e.1 (write e.2)) = .ok m' ↔
        entries.foldl (fun m e => m.insert e.1 e.2) m = m' ∧ ∀ e ∈ entries, P e.2 := by
  induction entries with
  | nil =>
      intro m m'
      simp [readMembers]
  | cons e entries ih =>
      intro m m'
      rw [List.forall_mem_cons, List.foldl_cons, List.map_cons, member,
        readMembers, bind_eq_ok]
      simp only [h e List.mem_cons_self, ih fun e he => h e (List.mem_cons_of_mem _ he)]
      constructor
      · rintro ⟨_, ⟨rfl, he⟩, hfold, hrest⟩
        exact ⟨hfold, he, hrest⟩
      · rintro ⟨hfold, he, hrest⟩
        exact ⟨e.2, ⟨rfl, he⟩, hfold, hrest⟩

/-- A map is read back if its values are. -/
theorem readMap_object {read : Nat → Json → Reading α} {write : α → Json} {P : α → Prop}
    {room : Nat} {m m' : KeyMap α}
    (h : ∀ e ∈ m.entries, ∀ y, read room (write e.2) = .ok y ↔ y = e.2 ∧ P e.2) :
    readMap read (room + 1)
      (.object (m.entries.map fun e => member e.1 (write e.2))) = .ok m' ↔
      m' = m ∧ ∀ e ∈ m.entries, P e.2 := by
  have hfold := KeyMap.foldl_insert_entries m.entries .empty m rfl
  rw [readMap, readMembers_map h, hfold, eq_comm]

/-! ## Records -/

theorem mem_of_member? {name : String} {members : List (Option String × Json)}
    {v : Json} (h : member? name members = some v) : ∃ key, (key, v) ∈ members := by
  induction members with
  | nil => exact nomatch h
  | cons m members ih =>
      rw [member?] at h
      split at h
      · cases h
        exact ⟨m.1, List.mem_cons_self⟩
      · exact (ih h).imp fun key hmem => List.mem_cons_of_mem _ hmem

namespace Fields

/-- The values in a record. -/
def values : Fields → List Json
  | named members => members.map (·.2)
  | listed items => items

/-- All values in a record are nested no deeper than `n`. -/
def Within (fs : Fields) (n : Nat) : Prop := ∀ v ∈ fs.values, v.depth ≤ n

/-- The content of a field is read off a value in the record. -/
theorem field_content {fs : Fields} {index : Nat} {name : String}
    {read : Json → Reading α} {r : Reading α}
    (h : (fs.field index name read).content = some r) :
    ∃ v ∈ fs.values, r = read v := by
  cases fs with
  | named members =>
      obtain ⟨v, hv, rfl⟩ := Option.map_eq_some_iff.1 h
      obtain ⟨key, hmem⟩ : ∃ key, (key, v) ∈ members := mem_of_member? hv
      exact ⟨v, List.mem_map_of_mem hmem, rfl⟩
  | listed items =>
      obtain ⟨v, hv, rfl⟩ := Option.map_eq_some_iff.1 h
      exact ⟨v, List.mem_of_getElem? hv, rfl⟩

theorem within_named {members : List (Option String × Json)} :
    (named members).Within (depthMembers members) := by
  intro v hv
  obtain ⟨m, hm, rfl⟩ := List.mem_map.1 hv
  exact depthMembers_le.1 (Nat.le_refl _) m hm

theorem within_listed {items : List Json} : (listed items).Within (depthItems items) :=
  fun v hv => depthItems_le.1 (Nat.le_refl _) v hv

end Fields

/-- The parts of a record lie inside it. -/
theorem fields_within {j : Json} {fs : Fields} (h : fields j = .ok fs) :
    ∃ n, j.depth = n + 1 ∧ fs.Within n := by
  unfold fields at h
  split at h
  · next members =>
    obtain rfl := pure_eq_ok.1 h
    exact ⟨depthMembers members, rfl, Fields.within_named⟩
  · next items =>
    obtain rfl := pure_eq_ok.1 h
    exact ⟨depthItems items, rfl, Fields.within_listed⟩
  · exact absurd h throw_ne_ok

theorem Field.required_eq_ok {f : Field α} {fs : Fields} {a : α} :
    f.required fs = .ok a ↔ f.content = some (.ok a) := by
  unfold Field.required
  cases f.content with
  | none => simp [throw_ne_ok]
  | some r => simp

theorem Field.withDefault_eq_ok {f : Field α} {default a : α} :
    f.withDefault default = .ok a ↔
      f.content = some (.ok a) ∨ f.content = none ∧ a = default := by
  unfold Field.withDefault
  cases f.content with
  | none =>
      simp only [Option.getD_none, pure_eq_ok, reduceCtorEq, true_and, false_or]
      exact eq_comm
  | some r => simp

/-- A field that had to be there was read off a value in the record. -/
theorem Field.value_of_required {fs : Fields} {n index : Nat} {name : String}
    {read : Json → Reading α} {a : α} (hfs : fs.Within n)
    (h : (fs.field index name read).required fs = .ok a) :
    ∃ v, v.depth ≤ n ∧ read v = .ok a := by
  obtain ⟨v, hv, hread⟩ := Fields.field_content (required_eq_ok.1 h)
  exact ⟨v, hfs v hv, hread.symm⟩

/-- Any other field was read off a value in the record, or has the default. -/
theorem Field.value_of_withDefault {fs : Fields} {n index : Nat} {name : String}
    {read : Json → Reading α} {default a : α} (hfs : fs.Within n)
    (h : (fs.field index name read).withDefault default = .ok a) :
    (∃ v, v.depth ≤ n ∧ read v = .ok a) ∨ a = default := by
  refine (withDefault_eq_ok.1 h).imp (fun hcontent => ?_) And.right
  obtain ⟨v, hv, hread⟩ := Fields.field_content hcontent
  exact ⟨v, hfs v hv, hread.symm⟩

/-! ### Records that were written -/

@[simp] theorem fields_object (members : List (Option String × Json)) :
    fields (.object members) = .ok (.named members) := rfl

@[simp] theorem field_named (members : List (Option String × Json)) (index : Nat)
    (name : String) (read : Json → Reading α) :
    (Fields.named members).field index name read =
      ⟨name, (member? name members).map read⟩ := rfl

@[simp] theorem member?_nil (name : String) : member? name [] = none := rfl

@[simp] theorem member?_member (name key : String) (value : Json)
    (members : List (Option String × Json)) :
    member? name (member key value :: members) =
      if key = name then some value else member? name members := by
  simp [member, member?]

@[simp] theorem required_some (name : String) (r : Reading α) (fs : Fields) :
    (⟨name, some r⟩ : Field α).required fs = r := rfl

@[simp] theorem withDefault_some (name : String) (r : Reading α) (default : α) :
    (⟨name, some r⟩ : Field α).withDefault default = r := rfl

@[simp] theorem withDefault_none (name : String) (default : α) :
    (⟨name, none⟩ : Field α).withDefault default = .ok default := rfl

@[simp] theorem fault_ok (name : String) (a : α) :
    (⟨name, some (.ok a)⟩ : Field α).fault = (name, none) := rfl

@[simp] theorem fault_none (name : String) :
    (⟨name, none⟩ : Field α).fault = (name, none) :=
  rfl

@[simp] theorem check_named (members : List (Option String × Json))
    (faults : List (String × Option Flaw)) :
    (Fields.named members).check faults = checkMembers faults [] members := rfl

@[simp] theorem checkMembers_nil (faults : List (String × Option Flaw))
    (seen : List String) :
    checkMembers faults seen [] = .ok () := rfl

/-- A new member that is read has no fault. -/
@[simp] theorem checkMembers_member {faults : List (String × Option Flaw)}
    {seen : List String} {key : String} (hlookup : faults.lookup key = some none)
    (hnew : key ∉ seen) (value : Json) (members : List (Option String × Json)) :
    checkMembers faults seen (member key value :: members) =
      checkMembers faults (key :: seen) members := by
  rw [member, checkMembers, hlookup]
  simp [hnew]

/-- A member that is no field is skipped. -/
@[simp] theorem checkMembers_skip {faults : List (String × Option Flaw)} {key : String}
    {value : Json} (hkey : key ∉ faults.map (·.1)) (hintact : value.intact = true)
    (seen : List String) (members : List (Option String × Json)) :
    checkMembers faults seen (member key value :: members) =
      checkMembers faults seen members := by
  have hlookup : faults.lookup key = none := by
    rw [List.lookup_eq_none_iff]
    rintro f hf
    simpa using fun heq : key = f.1 => hkey (heq ▸ List.mem_map_of_mem hf)
  rw [member, checkMembers, hlookup]
  simp [hintact]

@[simp] theorem intact_text (s : String) : (text s).intact = true := by
  simp [text, intact]

@[simp] theorem readText_text (s : String) : readText (.text s) = .ok s := rfl

/-! ## Choices -/

variable {κ : Type} {variants : List (String × κ)} {settled : Bool} {room : Nat}

/-- A choice that was written with its content. -/
theorem readVariant_member (name : String) (content : Json) :
    readVariant variants settled (room + 1) (.object [member name content]) =
      (do return ⟨← choose variants name, some content, .ok ()⟩) := by
  simp [readVariant, member]

/-- If nothing is wrong behind it, the content is all there is to read. -/
@[simp] theorem variant_read_ok (kind : κ) (content : Json) (read : Json → Reading α) :
    (⟨kind, some content, .ok ()⟩ : Variant κ).read read = read content := by
  unfold Variant.read
  dsimp only
  cases read content <;> rfl

/-- The content of a choice lies inside it. -/
theorem variant_content {j : Json} {v : Variant κ} {read : Json → Reading α} {a : α}
    (hv : readVariant variants settled room j = .ok v) (ha : v.read read = .ok a) :
    ∃ content, j.depth = content.depth + 1 ∧ read content = .ok a := by
  unfold readVariant at hv
  split at hv
  · obtain ⟨kind, -, hv⟩ := bind_eq_ok.1 hv
    obtain rfl := pure_eq_ok.1 hv
    exact absurd ha throw_ne_ok
  · next key content others =>
    split at hv
    · exact absurd hv throw_ne_ok
    split at hv
    · exact absurd hv throw_ne_ok
    obtain ⟨kind, -, hv⟩ := bind_eq_ok.1 hv
    obtain rfl := pure_eq_ok.1 hv
    obtain ⟨b, hb, hending⟩ := bind_eq_ok.1 ha
    obtain ⟨_, hothers, hb'⟩ := bind_eq_ok.1 hending
    obtain rfl := pure_eq_ok.1 hb'
    cases others with
    | nil => exact ⟨content, by simp, hb⟩
    | cons m others => simp at hothers
  · exact absurd hv throw_ne_ok

end Json

end Consult
