import Consult.Proofs.Recording

/-!
# The first value counts

There are five calls that record facts: applying consequences, those of a rule or
those of an answer, giving a fact a value, and assuming that it is undefined.  Each of
them takes its consequences in one after the other.  A fact that has no value gets
one; a fact that has another value keeps it, and this is reported.

As a call has one value at most for each fact, what it records does not matter to what
it reports: the conflicts are those with what was recorded when it began.  So a call
that is repeated reports the same once more, and after any number of calls a fact has
the record that it had before them, or else that of the first call that mentions it.

## Main results

* `apply_eq_takeInAll` — consequences may be taken in one by one.
* `Entry.perform_eq_apply` — each of the five calls applies its
  consequences for its reason.
* `mem_conflicts_iff`, `pairwise_conflicts` — what is reported, and in which order.
* `first_value_counts` — what one call and what a sequence of calls does.
-/

namespace Consult

namespace Facts

/-! ## One consequence after the other -/

/-- Takes in one consequence: the facts and the conflicts found so far, with it. -/
def takeIn (reason : Reason) (done : Facts × List Conflict) (e : String × String) :
    Facts × List Conflict :=
  match done.1.get? e.1 with
  | none => (done.1.insert e.1 ⟨e.2, reason⟩, done.2)
  | some record =>
    if record.value = e.2 then done else (done.1, done.2 ++ [⟨e.1, record.value, e.2⟩])

/-- Takes in all consequences, in the order of the facts. -/
def takeInAll (facts : Facts) (consequences : Consequences) (reason : Reason) :
    Facts × List Conflict :=
  consequences.entries.foldl (takeIn reason) (facts, [])

theorem conflicts_eq (facts : Facts) (consequences : Consequences) :
    facts.conflicts consequences =
      consequences.entries.filterMap fun e => facts.conflict? e.1 e.2 := rfl

/-- Another fact that is recorded makes no difference to whether a
consequence is a conflict. -/
theorem conflict?_insert (facts : Facts) {fact other value : String} (record : Record)
    (hne : fact ≠ other) : conflict? (facts.insert other record) fact value =
      facts.conflict? fact value := by
  unfold conflict?
  rw [KeyMap.get?_insert_of_ne _ _ hne]

/-- The loop over the consequences keeps this: the facts are recorded as far as
they are new, and the conflicts are those with the facts at the beginning, since
no fact occurs twice. -/
theorem foldl_takeIn (reason : Reason) {entries : List (String × String)}
    (hentries : entries.Pairwise fun e e' => e.1 < e'.1) : ∀ (facts : Facts)
      (conflicts : List Conflict), entries.foldl (takeIn reason) (facts, conflicts) =
        (entries.foldl (fun facts e => facts.insertIfNew e.1 ⟨e.2, reason⟩) facts,
          conflicts ++ entries.filterMap fun e => facts.conflict? e.1 e.2) := by
  induction hentries with
  | nil => simp
  | @cons e rest hfirst _ ih =>
      intro facts conflicts
      rw [List.foldl_cons, List.foldl_cons, List.filterMap_cons]
      cases hget : facts.get? e.1 with
      | none =>
          have htaken : takeIn reason (facts, conflicts) e =
              (facts.insert e.1 ⟨e.2, reason⟩, conflicts) := by
            simp [takeIn, hget]
          have hnone : facts.conflict? e.1 e.2 = none := by
            simp [conflict?, hget]
          have hrest : rest.filterMap
              (fun e' => conflict? (facts.insert e.1 ⟨e.2, reason⟩) e'.1 e'.2) =
              rest.filterMap fun e' => facts.conflict? e'.1 e'.2 :=
            List.filterMap_congr fun e' he' =>
              facts.conflict?_insert _ fun heq =>
                String.lt_irrefl _ (heq ▸ hfirst e' he')
          rw [htaken, ih, hrest, KeyMap.insertIfNew_of_get?_none _ hget, hnone]
      | some record =>
          rw [KeyMap.insertIfNew_of_get? _ hget]
          by_cases hvalue : record.value = e.2
          · have htaken : takeIn reason (facts, conflicts) e = (facts, conflicts) := by
              simp [takeIn, hget, hvalue]
            have hnone : facts.conflict? e.1 e.2 = none := by
              simp [conflict?, hget, hvalue]
            rw [htaken, ih, hnone]
          · have htaken : takeIn reason (facts, conflicts) e =
                (facts, conflicts ++ [⟨e.1, record.value, e.2⟩]) := by
              simp [takeIn, hget, hvalue]
            have hconflict : facts.conflict? e.1 e.2 =
                some ⟨e.1, record.value, e.2⟩ := by
              simp [conflict?, hget, hvalue]
            rw [htaken, ih, hconflict, List.append_assoc, List.singleton_append]

/-! ## What is reported -/

theorem conflict?_eq_some_iff {facts : Facts} {fact value : String} {c : Conflict} :
    facts.conflict? fact value = some c ↔ ∃ record, facts.get? fact = some record ∧
      record.value ≠ value ∧ c = ⟨fact, record.value, value⟩ := by
  unfold conflict?
  cases hget : facts.get? fact with
  | none => simp
  | some record =>
      by_cases hvalue : record.value = value
      · simp [hvalue]
      · simp only [hvalue, if_false, Option.some.injEq]
        constructor
        · rintro rfl
          exact ⟨record, rfl, hvalue, rfl⟩
        · rintro ⟨_, rfl, -, rfl⟩
          rfl

/-- The conflicts are the consequences that have another value than the one recorded. -/
theorem mem_conflicts_iff {facts : Facts} {consequences : Consequences} {c : Conflict} :
    c ∈ facts.conflicts consequences ↔ consequences.get? c.fact = some c.rejected ∧
      ∃ record, facts.get? c.fact = some record ∧ record.value = c.existing ∧
        c.existing ≠ c.rejected := by
  rw [conflicts_eq, List.mem_filterMap]
  constructor
  · rintro ⟨⟨fact, value⟩, hmem, hconflict⟩
    obtain ⟨record, hget, hvalue, rfl⟩ := conflict?_eq_some_iff.1 hconflict
    exact ⟨KeyMap.mem_entries_iff.1 hmem, record, hget, rfl, hvalue⟩
  · rintro ⟨hconsequence, record, hget, hexisting, hne⟩
    refine ⟨(c.fact, c.rejected), KeyMap.mem_entries_iff.2 hconsequence, ?_⟩
    exact conflict?_eq_some_iff.2 ⟨record, hget, hexisting ▸ hne, by rw [hexisting]⟩

/-- They are reported in the order of the facts. -/
theorem pairwise_conflicts (facts : Facts) (consequences : Consequences) :
    (facts.conflicts consequences).Pairwise fun c d => c.fact < d.fact := by
  rw [conflicts_eq]
  refine List.Pairwise.filterMap _ ?_ consequences.ascending
  rintro ⟨fact, value⟩ ⟨fact', value'⟩ hlt c hc d hd
  obtain ⟨_, _, _, rfl⟩ := conflict?_eq_some_iff.1 hc
  obtain ⟨_, _, _, rfl⟩ := conflict?_eq_some_iff.1 hd
  exact hlt

/-! ## Once more -/

/-- What has been recorded is not recorded again. -/
theorem record_record (facts : Facts) (consequences : Consequences) (reason : Reason) :
    (facts.record consequences reason).record consequences reason =
      facts.record consequences reason := by
  apply KeyMap.ext_get?
  intro fact
  rw [get?_record_eq, get?_record_eq]
  cases facts.get? fact <;> cases consequences.get? fact <;> rfl

/-- What has been recorded is no conflict, and what was one stays one. -/
theorem conflicts_record (facts : Facts) (consequences : Consequences)
    (reason : Reason) :
    (facts.record consequences reason).conflicts consequences =
      facts.conflicts consequences := by
  rw [conflicts_eq, conflicts_eq]
  refine List.filterMap_congr fun e he => ?_
  have hconsequence : consequences.get? e.1 = some e.2 := KeyMap.mem_entries_iff.1 he
  have hrecord := get?_record_eq facts consequences reason e.1
  rw [hconsequence] at hrecord
  unfold conflict?
  rw [hrecord]
  cases facts.get? e.1 <;> simp

end Facts

/-- To apply consequences is to take them in one by one. -/
theorem Consultation.apply_eq_takeInAll (s : Consultation) (consequences : Consequences)
    (reason : Reason) : s.apply consequences reason =
      ({ s with facts := (s.facts.takeInAll consequences reason).1 },
        (s.facts.takeInAll consequences reason).2) := by
  unfold Facts.takeInAll
  rw [Facts.foldl_takeIn reason consequences.ascending, List.nil_append]
  rfl

/-! ## Calls that record facts -/

/-- A call that records facts. -/
inductive Entry where
  | apply (consequences : Consequences) (reason : Reason)
  | applyRule (rule : Rule) (finding : Finding)
  | applyAnswer (question : Question) (choice : Choice)
  | define (fact value : String)
  | assumeUndefined (fact : String)

namespace Entry

/-- What the call leaves, and the conflicts that it reports. -/
def perform (s : Consultation) : Entry → Consultation × List Conflict
  | apply consequences reason => s.apply consequences reason
  | applyRule rule finding => s.applyRule rule finding
  | applyAnswer question choice => s.applyAnswer question choice
  | define fact value => ((s.define fact value).1, (s.define fact value).2.toList)
  | assumeUndefined fact =>
      ((s.assumeUndefined fact).1, (s.assumeUndefined fact).2.toList)

/-- What is left by one call after the other. -/
def performAll (s : Consultation) (entries : List Entry) : Consultation :=
  entries.foldl (fun s entry => (entry.perform s).1) s

/-- The values that the call mentions. -/
def consequences : Entry → Consequences
  | apply consequences _ => consequences
  | applyRule rule _ => rule.consequences
  | applyAnswer _ choice => choice.consequences
  | define fact value => KeyMap.empty.insert fact value
  | assumeUndefined fact => KeyMap.empty.insert fact undefinedValue

/-- The reason that the call gives. -/
def reason : Entry → Reason
  | apply _ reason => reason
  | applyRule rule finding => .inferred rule finding
  | applyAnswer question choice => .answered question choice
  | define _ _ => .given "Given"
  | assumeUndefined fact => (Facts.undefinedRecord fact).reason

/-- The record that the call makes of a fact, if it mentions it. -/
def record? (entry : Entry) (fact : String) : Option Record :=
  (entry.consequences.get? fact).map fun value => ⟨value, entry.reason⟩

/-- A single value leads to one conflict at most, so no report is lost. -/
theorem state_eq_apply (s : Consultation) (fact value explanation : String) :
    ((s.state fact value explanation).1, (s.state fact value explanation).2.toList) =
      s.apply (KeyMap.empty.insert fact value) (.given explanation) := by
  have hconflicts : (s.facts.conflicts (KeyMap.empty.insert fact value)).head?.toList =
      s.facts.conflicts (KeyMap.empty.insert fact value) := by
    have hsingle : (KeyMap.empty.insert fact value : Consequences).entries =
        [(fact, value)] := rfl
    rw [Facts.conflicts_eq, hsingle, List.filterMap_cons]
    cases s.facts.conflict? fact value <;> rfl
  exact congrArg (Prod.mk _) hconflicts

/-- Each call applies its consequences for its reason. -/
theorem perform_eq_apply (entry : Entry) (s : Consultation) :
    entry.perform s = s.apply entry.consequences entry.reason := by
  cases entry with
  | apply _ _ => rfl
  | applyRule _ _ => rfl
  | applyAnswer _ _ => rfl
  | define fact value => exact state_eq_apply s fact value _
  | assumeUndefined fact => exact state_eq_apply s fact undefinedValue _

theorem get?_perform (entry : Entry) (s : Consultation) (fact : String) :
    (entry.perform s).1.facts.get? fact =
      (s.facts.get? fact).or (entry.record? fact) := by
  rw [perform_eq_apply]
  exact Facts.get?_record_eq s.facts entry.consequences entry.reason fact

/-- A fact has the record that it had before the calls, or that of the first
one that mentions it. -/
theorem get?_performAll (entries : List Entry) : ∀ (s : Consultation) (fact : String),
    (performAll s entries).facts.get? fact =
      (s.facts.get? fact).or (entries.findSome? (·.record? fact)) := by
  induction entries with
  | nil =>
      intro s fact
      exact (Option.or_none).symm
  | cons entry entries ih =>
      intro s fact
      have hrest := ih (entry.perform s).1 fact
      rw [get?_perform, Option.or_assoc] at hrest
      rw [List.findSome?_cons]
      cases hrecord : entry.record? fact with
      | none => rwa [hrecord, Option.none_or] at hrest
      | some record => rwa [hrecord, Option.some_or] at hrest

/-- A call records facts and changes nothing else. -/
theorem perform_frame (entry : Entry) (s : Consultation) :
    (entry.perform s).1.rules = s.rules ∧ (entry.perform s).1.questions = s.questions ∧
      (entry.perform s).1.agenda = s.agenda := by
  rw [perform_eq_apply]
  exact ⟨rfl, rfl, rfl⟩

theorem performAll_frame (entries : List Entry) : ∀ s : Consultation,
    (performAll s entries).rules = s.rules ∧
      (performAll s entries).questions = s.questions ∧
      (performAll s entries).agenda = s.agenda := by
  induction entries with
  | nil => exact fun s => ⟨rfl, rfl, rfl⟩
  | cons entry entries ih =>
      intro s
      obtain ⟨hrules, hquestions, hagenda⟩ := entry.perform_frame s
      obtain ⟨hrules', hquestions', hagenda'⟩ := ih (entry.perform s).1
      exact ⟨hrules'.trans hrules, hquestions'.trans hquestions, hagenda'.trans hagenda⟩

/-- A call that is repeated changes nothing and reports the same. -/
theorem perform_perform (entry : Entry) (s : Consultation) :
    entry.perform (entry.perform s).1 = entry.perform s := by
  rw [perform_eq_apply, perform_eq_apply]
  show (⟨⟨(s.facts.record _ _).record _ _, s.rules, s.questions, s.agenda⟩,
      (s.facts.record _ _).conflicts _⟩ : Consultation × List Conflict) = _
  rw [Facts.record_record, Facts.conflicts_record]
  rfl

end Entry

/-- After any calls that record facts, a fact has the record that it had before, or
else that of the first call that mentions it, and nothing but the facts has changed.
A call takes its consequences in one by one.  It reports those whose value is not the
one that was recorded when it began, in the order of the facts; and if it is repeated,
it changes nothing and reports the same. -/
theorem first_value_counts :
    (∀ (s : Consultation) (entries : List Entry),
      (∀ fact, (Entry.performAll s entries).facts.get? fact =
        (s.facts.get? fact).or (entries.findSome? (·.record? fact))) ∧
      (Entry.performAll s entries).rules = s.rules ∧
      (Entry.performAll s entries).questions = s.questions ∧
      (Entry.performAll s entries).agenda = s.agenda) ∧
    ∀ (s : Consultation) (entry : Entry),
      entry.perform s =
        ({ s with facts := (s.facts.takeInAll entry.consequences entry.reason).1 },
          (s.facts.takeInAll entry.consequences entry.reason).2) ∧
      (∀ c, c ∈ (entry.perform s).2 ↔ entry.consequences.get? c.fact = some c.rejected ∧
        ∃ record, s.facts.get? c.fact = some record ∧ record.value = c.existing ∧
          c.existing ≠ c.rejected) ∧
      ((entry.perform s).2.Pairwise fun c d => c.fact < d.fact) ∧
      entry.perform (entry.perform s).1 = entry.perform s := by
  refine ⟨fun s entries =>
    ⟨Entry.get?_performAll entries s, Entry.performAll_frame entries s⟩,
    fun s entry => ⟨?loop, fun c => ?reported, ?ordered, entry.perform_perform s⟩⟩
  case loop =>
    rw [Entry.perform_eq_apply]
    exact s.apply_eq_takeInAll _ _
  case reported =>
    rw [Entry.perform_eq_apply]
    exact Facts.mem_conflicts_iff
  case ordered =>
    rw [Entry.perform_eq_apply]
    exact Facts.pairwise_conflicts _ _

/-- A second colour is reported and not recorded, while the size is new. -/
example :
    let painted := ((Entry.define "colour" "blue").perform .blank).1
    let (measured, conflicts) :=
      (Entry.apply (.ofList [("size", "10"), ("colour", "red")])
      (.given "Measured")).perform painted
    conflicts = [⟨"colour", "blue", "red"⟩] ∧
      measured.facts.get? "colour" = some ⟨"blue", .given "Given"⟩ ∧
      measured.facts.get? "size" = some ⟨"10", .given "Measured"⟩ := by
  decide +kernel

end Consult
