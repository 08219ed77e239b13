import Consult.Chaining.Basic
import Consult.Proofs.Chain

/-!
# What recording does

A fact keeps its first value.  This file says what is recorded after
consequences have been applied, fact by fact, and singles out the records that
are made when a fact is assumed undefined.

## Main results

* `get?_record_eq` — what is recorded after consequences have been applied.
* `get?_assumeUndefined` — what is recorded after a fact has been assumed undefined.
-/

namespace Consult

namespace Facts

/-! ## Records that stay -/

/-- `facts'.Keeps facts`: every fact of `facts` is recorded in `facts'` with the
same value, for the same reason. -/
def Keeps (facts' facts : Facts) : Prop :=
  ∀ fact record, facts.get? fact = some record → facts'.get? fact = some record

theorem Keeps.refl (facts : Facts) : facts.Keeps facts := fun _ _ h => h

theorem Keeps.trans {facts facts' facts'' : Facts} (h : facts''.Keeps facts')
    (h' : facts'.Keeps facts) : facts''.Keeps facts :=
  fun fact record hget => h fact record (h' fact record hget)

/-- What is not recorded later was not recorded before. -/
theorem Keeps.get?_none {facts facts' : Facts} (h : facts'.Keeps facts) {fact : String}
    (hnone : facts'.get? fact = none) : facts.get? fact = none := by
  cases hget : facts.get? fact with
  | none => rfl
  | some record => simp [h fact record hget] at hnone

theorem Keeps.extends {facts facts' : Facts} (h : facts'.Keeps facts) :
    facts'.Extends facts :=
  fun fact record hget => ⟨record, h fact record hget, rfl⟩

/-! ## Consequences -/

/-- A fact has the record that it had before; if it had none, that of its first
entry. -/
theorem get?_foldl_insertIfNew_eq (reason : Reason) (entries : List (String × String)) :
    ∀ (facts : Facts) (fact : String),
      (entries.foldl (fun facts e => facts.insertIfNew e.1 ⟨e.2, reason⟩) facts).get?
        fact =
        (facts.get? fact).or
          ((KeyMap.lookup fact entries).map fun value => ⟨value, reason⟩) := by
  induction entries with
  | nil =>
      intro facts fact
      simp [KeyMap.lookup]
  | cons e rest ih =>
      intro facts fact
      rw [List.foldl_cons, ih]
      by_cases hfact : fact = e.1
      · subst hfact
        cases hget : facts.get? e.1 with
        | none =>
            rw [KeyMap.insertIfNew_of_get?_none _ hget]
            simp [KeyMap.lookup]
        | some record =>
            rw [KeyMap.insertIfNew_of_get? _ hget]
            simp [hget]
      · have hsame : (facts.insertIfNew e.1 ⟨e.2, reason⟩).get? fact =
            facts.get? fact := by
          unfold KeyMap.insertIfNew
          split
          · rfl
          · exact KeyMap.get?_insert_of_ne _ _ hfact
        simp [hsame, KeyMap.lookup, hfact]

/-- A fact has the record that it had before; if it had none, its consequence. -/
theorem get?_record_eq (facts : Facts) (consequences : Consequences) (reason : Reason)
    (fact : String) :
    (facts.record consequences reason).get? fact =
      (facts.get? fact).or
        ((consequences.get? fact).map fun value => ⟨value, reason⟩) :=
  get?_foldl_insertIfNew_eq reason consequences.entries facts fact

theorem keeps_record (facts : Facts) (consequences : Consequences) (reason : Reason) :
    (facts.record consequences reason).Keeps facts :=
  fun _ _ h => get?_record facts consequences reason h

/-- A new record is a consequence, for the reason given. -/
theorem of_get?_record {facts : Facts} {consequences : Consequences} {reason : Reason}
    {fact : String} {record : Record}
    (h : (facts.record consequences reason).get? fact = some record) :
    facts.get? fact = some record ∨
      facts.get? fact = none ∧ consequences.get? fact = some record.value ∧
        record.reason = reason := by
  rw [get?_record_eq] at h
  cases hget : facts.get? fact with
  | some old =>
      left
      simpa [hget] using h
  | none =>
      right
      rw [hget, Option.none_or, Option.map_eq_some_iff] at h
      obtain ⟨value, hvalue, rfl⟩ := h
      exact ⟨rfl, hvalue, rfl⟩

/-! ## Facts assumed undefined -/

theorem isVariable_undefinedValue : isVariable undefinedValue = false := by decide

/-- The record of a fact that is assumed undefined. -/
def undefinedRecord (fact : String) : Record :=
  ⟨undefinedValue,
    .given s!"No rule or question could determine '{fact}', so it is assumed undefined"⟩

/-- The fact was assumed undefined, for want of a rule or a question that settles it. -/
def AssumedUndefined (facts : Facts) (fact : String) : Prop :=
  facts.get? fact = some (undefinedRecord fact)

instance (facts : Facts) (fact : String) : Decidable (facts.AssumedUndefined fact) := by
  unfold AssumedUndefined
  infer_instance

end Facts

namespace Consultation

theorem keeps_apply (s : Consultation) (consequences : Consequences) (reason : Reason) :
    (s.apply consequences reason).1.facts.Keeps s.facts :=
  Facts.keeps_record _ _ _

/-- What a rule infers is recorded when it has fired. -/
theorem exists_get?_applyRule (s : Consultation) {rule : Rule} (finding : Finding)
    {fact : String} (hinfers : rule.infers fact = true) :
    ∃ record, (s.applyRule rule finding).1.facts.get? fact = some record := by
  obtain ⟨value, hvalue⟩ := Rule.infers_iff.1 hinfers
  have hrecord :=
    Facts.get?_record_eq s.facts rule.consequences (.inferred rule finding) fact
  rw [hvalue] at hrecord
  cases hget : s.facts.get? fact with
  | none => exact ⟨_, by rw [hget] at hrecord; exact hrecord⟩
  | some record => exact ⟨_, by rw [hget] at hrecord; exact hrecord⟩

/-- What is recorded after a fact has been assumed undefined. -/
theorem get?_assumeUndefined (s : Consultation) (fact other : String) :
    (s.assumeUndefined fact).1.facts.get? other =
      (s.facts.get? other).or
        (if other = fact then some (Facts.undefinedRecord fact) else none) := by
  have hfacts : (s.assumeUndefined fact).1.facts =
      s.facts.record (KeyMap.empty.insert fact undefinedValue)
        (Facts.undefinedRecord fact).reason := rfl
  rw [hfacts, Facts.get?_record_eq, KeyMap.get?_insert, KeyMap.get?_empty]
  by_cases hother : other = fact
  · simp [hother, Facts.undefinedRecord]
  · simp [hother]

/-- Nothing changes when a recorded fact is to be assumed undefined. -/
theorem assumeUndefined_of_get? {s : Consultation} {fact : String} {record : Record}
    (h : s.facts.get? fact = some record) : (s.assumeUndefined fact).1 = s := by
  have hfacts : (s.assumeUndefined fact).1.facts = s.facts := by
    apply KeyMap.ext_get?
    intro other
    rw [get?_assumeUndefined]
    by_cases hother : other = fact
    · simp [hother, h]
    · simp [hother]
  show (⟨(s.assumeUndefined fact).1.facts, s.rules, s.questions, s.agenda⟩ :
    Consultation) = s
  rw [hfacts]

theorem keeps_assumeUndefined (s : Consultation) (fact : String) :
    (s.assumeUndefined fact).1.facts.Keeps s.facts :=
  Facts.keeps_record _ _ _

end Consultation

end Consult
