import Consult.Proofs.Saturation

/-!
# The order of rules does not matter to forward chaining

Rules leave in an order that depends on where they stand, and a rule may be ruled
out before the facts come in on which it fires when it stands elsewhere.  That
this makes no difference rests on two things.  Findings on parts of the same facts
never contradict each other, even where all facts together make a chain of
variables circular and the condition cannot be evaluated; so a rule that fires in
one order is not ruled out in another.  And what a rule infers ends up with the
value that the rule gives it, if no fact is given two values.  The facts at the
end of one order are therefore closed under the rules, and the facts at the end
of any other order are the least that are.

## Main results

* `Condition.agrees_of_extends` — findings on parts of the same facts agree.
* `Sweeps.closed` — the facts in the end are closed under the rules.
* `Sweeps.least` — there are no others than in any closed facts.
* `rule_order_irrelevant` — in any order the same facts and rules are left.
-/

namespace Consult

/-! ## Findings that agree -/

/-- One of the verdicts leaves open what the other says. -/
def Verdict.Agrees (v w : Verdict) : Prop := v = .maybe ∨ w = .maybe ∨ v = w

namespace Verdict

theorem Agrees.symm {v w : Verdict} (h : v.Agrees w) : w.Agrees v := by
  rcases h with hv | hw | heq
  · exact .inr (.inl hv)
  · exact .inl hw
  · exact .inr (.inr heq.symm)

theorem Agrees.flip {v w : Verdict} (h : v.Agrees w) : v.flip.Agrees w.flip := by
  rcases h with rfl | rfl | rfl
  · exact .inl rfl
  · exact .inr (.inl rfl)
  · exact .inr (.inr rfl)

/-- Whatever holds in one group holds or may hold in the other. -/
private theorem count_yes_le {vs ws : List Verdict} (h : List.Forall₂ Agrees vs ws) :
    vs.count yes ≤ ws.count yes + ws.count maybe := by
  induction h with
  | nil => exact Nat.le_refl _
  | @cons v w vs ws hagree _ ih =>
      simp only [List.count_cons]
      rcases hagree with rfl | rfl | rfl
      · cases w <;> simp <;> omega
      · cases v <;> simp <;> omega
      · cases v <;> simp <;> omega

theorem atLeast_agrees (k : Nat) {vs ws : List Verdict}
    (h : List.Forall₂ Agrees vs ws) :
    (atLeast k vs).Agrees (atLeast k ws) := by
  have hleft := count_yes_le h
  have hright := count_yes_le (h.flip.imp fun _ _ hagree => Agrees.symm hagree)
  unfold atLeast ofCounts Agrees
  by_cases hv : k ≤ vs.count yes
  · rw [if_pos hv]
    by_cases hw : k ≤ ws.count yes
    · right; right
      rw [if_pos hw]
    · right; left
      rw [if_neg hw, if_pos (by omega)]
  · rw [if_neg hv]
    by_cases hv' : k ≤ vs.count yes + vs.count maybe
    · left
      rw [if_pos hv']
    · right
      have hw : ¬k ≤ ws.count yes := by omega
      rw [if_neg hv', if_neg hw]
      by_cases hw' : k ≤ ws.count yes + ws.count maybe
      · left
        rw [if_pos hw']
      · right
        rw [if_neg hw']

end Verdict

section Parts

variable {facts before before' : Facts}

theorem Comparison.agrees_of_extends {c : Comparison} (h : facts.Extends before)
    (h' : facts.Extends before') {f f' : Finding} (hf : c.evaluate before = .ok f)
    (hf' : c.evaluate before' = .ok f') : f.verdict.Agrees f'.verdict := by
  cases evaluate_eq_ok_iff.1 hf with
  | name _ => exact .inl rfl
  | fact _ _ => exact .inl rfl
  | value _ _ _ => exact .inl rfl
  | expected _ _ _ _ => exact .inl rfl
  | @settled name actual expected record hname hget hvalue hexpected =>
  cases evaluate_eq_ok_iff.1 hf' with
  | name _ => exact .inr (.inl rfl)
  | fact _ _ => exact .inr (.inl rfl)
  | value _ _ _ => exact .inr (.inl rfl)
  | expected _ _ _ _ => exact .inr (.inl rfl)
  | @settled name' actual' expected' record' hname' hget' hvalue' hexpected' =>
  -- All chains end in literals, and therefore lead to the same ones among all facts.
  have hsame {text value value' : String}
      (hr : before.resolve text = .ok (.literal value))
      (hr' : before'.resolve text = .ok (.literal value')) : value = value' :=
    Resolution.literal.inj
      (Except.ok.inj ((h.resolve_literal hr).symm.trans (h'.resolve_literal hr')))
  obtain rfl := hsame hname hname'
  obtain rfl := hsame hexpected hexpected'
  obtain ⟨common, hcommon, hcommonValue⟩ := h name record hget
  obtain ⟨common', hcommon', hcommonValue'⟩ := h' name record' hget'
  obtain rfl : common = common' := Option.some.inj (hcommon.symm.trans hcommon')
  rw [← hcommonValue] at hvalue
  rw [← hcommonValue'] at hvalue'
  obtain rfl := hsame hvalue hvalue'
  exact .inr (.inr rfl)

/-- The findings on the members of a group agree if those on each member do. -/
private theorem Condition.forall₂_agrees {cs : List Condition}
    {parts parts' : List Finding}
    (hparts : List.Forall₂ (fun c f => evaluate before c = .ok f) cs parts)
    (hparts' : List.Forall₂ (fun c f => evaluate before' c = .ok f) cs parts')
    (h : ∀ c ∈ cs, ∀ f f', c.evaluate before = .ok f → c.evaluate before' = .ok f' →
      f.verdict.Agrees f'.verdict) :
    List.Forall₂ Verdict.Agrees (parts.map (·.verdict)) (parts'.map (·.verdict)) := by
  induction hparts generalizing parts' with
  | nil =>
      cases hparts'
      exact .nil
  | @cons c part cs parts hpart hrest ih =>
      cases hparts' with
      | @cons _ part' _ _ hpart' hrest' =>
          have hfirst := h c List.mem_cons_self part part' hpart hpart'
          exact .cons hfirst (ih hrest' fun d hd => h d (List.mem_cons_of_mem _ hd))

/-- Findings on parts of the same facts agree. -/
theorem Condition.agrees_of_extends (h : facts.Extends before)
    (h' : facts.Extends before') (c : Condition) :
    ∀ {f f' : Finding}, c.evaluate before = .ok f →
      c.evaluate before' = .ok f' → f.verdict.Agrees f'.verdict := by
  induction c using Condition.induction with
  | compare c =>
      intro f f' hf hf'
      exact Comparison.agrees_of_extends h h' hf hf'
  | negation c ih =>
      intro f f' hf hf'
      obtain ⟨part, hpart, rfl⟩ := evaluate_negation_eq_ok_iff.1 hf
      obtain ⟨part', hpart', rfl⟩ := evaluate_negation_eq_ok_iff.1 hf'
      exact (ih hpart hpart').flip
  | atLeast k cs ih =>
      intro f f' hf hf'
      obtain ⟨parts, hparts, rfl⟩ := evaluate_atLeast_eq_ok_iff.1 hf
      obtain ⟨parts', hparts', rfl⟩ := evaluate_atLeast_eq_ok_iff.1 hf'
      have hmembers := forall₂_agrees hparts hparts' fun c hc f f' hf hf' =>
          ih c hc hf hf'
      exact Verdict.atLeast_agrees k hmembers

/-- What holds, given a part of the facts, is not ruled out, given another. -/
theorem Condition.Finds.not_no {c : Condition} (hyes : c.Finds before .yes)
    (h : facts.Extends before) (h' : facts.Extends before') : ¬c.Finds before' .no := by
  obtain ⟨f, hf, hfyes⟩ := hyes
  rintro ⟨f', hf', hfno⟩
  have hagree := c.agrees_of_extends h h' hf hf'
  rw [hfyes, hfno] at hagree
  rcases hagree with h | h | h <;> cases h

end Parts

/-- What is undecided was undecided before facts were added. -/
theorem Condition.Finds.maybe_before {facts facts' : Facts} (h : facts'.Extends facts)
    {c : Condition} (hmaybe : c.Finds facts' .maybe) : c.Finds facts .maybe := by
  obtain ⟨f', hf', hverdict'⟩ := hmaybe
  obtain ⟨f, hf, hfirms⟩ := c.evaluate_of_extends h hf'
  rw [hverdict'] at hfirms
  rcases hfirms with hverdict | hverdict
  · exact ⟨f, hf, hverdict⟩
  · exact ⟨f, hf, hverdict.symm⟩

/-- A rule that need not be considered any more is not undecided. -/
theorem Rule.Done.not_maybe {rule : Rule} {facts : Facts} (h : rule.Done facts) :
    ¬rule.condition.Finds facts .maybe := by
  rintro ⟨f, hf, hmaybe⟩
  have hverdict {v : Verdict} (hfinds : rule.condition.Finds facts v) : v = .maybe :=
    ((Condition.finds_iff hf).1 hfinds).symm.trans hmaybe
  cases h with
  | ruledOut hno => cases hverdict hno
  | fired hyes _ => cases hverdict hyes
  | circular heval => simp [hf] at heval

/-! ## What facts are given -/

/-- The same facts are recorded, with the same values. -/
def Facts.SameValues (facts facts' : Facts) : Prop :=
  ∀ fact, (facts.get? fact).map (·.value) = (facts'.get? fact).map (·.value)

theorem Facts.sameValues_iff {facts facts' : Facts} :
    facts.SameValues facts' ↔ facts.Extends facts' ∧ facts'.Extends facts := by
  constructor
  · intro h
    constructor
    · intro fact record hget
      have hvalue := h fact
      rw [hget] at hvalue
      exact Option.map_eq_some_iff.1 hvalue
    · intro fact record hget
      have hvalue := h fact
      rw [hget] at hvalue
      exact Option.map_eq_some_iff.1 hvalue.symm
  · rintro ⟨h, h'⟩ fact
    cases hget : facts.get? fact with
    | some record =>
        obtain ⟨record', hget', hvalue⟩ := h' fact record hget
        simp [hget', hvalue]
    | none =>
        cases hget' : facts'.get? fact with
        | none => rfl
        | some record' =>
            obtain ⟨record, hsome, -⟩ := h fact record' hget'
            simp [hget] at hsome

namespace Consultation

/-- The values that facts have, or are given by the rules that are left. -/
def given (s : Consultation) : List (String × String) :=
  s.facts.entries.map (fun e => (e.1, e.2.value)) ++
    s.rules.flatMap (·.consequences.entries)

/-- No fact is given two values. -/
def Consistent (s : Consultation) : Prop :=
  ∀ e ∈ s.given, ∀ e' ∈ s.given, e.1 = e'.1 → e.2 = e'.2

instance (s : Consultation) : Decidable s.Consistent := by
  unfold Consistent
  infer_instance

variable {s : Consultation} {fact value : String}

theorem mem_given_iff : (fact, value) ∈ s.given ↔
    (∃ record, s.facts.get? fact = some record ∧ record.value = value) ∨
      ∃ rule ∈ s.rules, rule.consequences.get? fact = some value := by
  simp only [given, List.mem_append, List.mem_map, List.mem_flatMap,
    KeyMap.mem_entries_iff]
  refine or_congr ⟨?_, ?_⟩ Iff.rfl
  · rintro ⟨⟨name, record⟩, hmem, heq⟩
    obtain ⟨rfl, rfl⟩ := Prod.mk.inj heq
    exact ⟨record, KeyMap.mem_entries_iff.1 hmem, rfl⟩
  · rintro ⟨record, hget, rfl⟩
    exact ⟨(fact, record), KeyMap.mem_entries_iff.2 hget, rfl⟩

theorem given_of_sublist {left : List Rule} (hleft : left.Sublist s.rules)
    (h : (fact, value) ∈ ({ s with rules := left } : Consultation).given) :
    (fact, value) ∈ s.given := by
  rcases mem_given_iff.1 h with hrecord | ⟨rule, hrule, hvalue⟩
  · exact mem_given_iff.2 (.inl hrecord)
  · exact mem_given_iff.2 (.inr ⟨rule, hleft.subset hrule, hvalue⟩)

/-- A rule gives facts no other values when it fires. -/
theorem given_of_applyRule {rule : Rule} {finding : Finding} {left : List Rule}
    (hleft : left.Sublist s.rules) (hrule : rule ∈ s.rules)
    (h : (fact, value) ∈ (applyRule { s with rules := left } rule finding).1.given) :
    (fact, value) ∈ s.given := by
  rcases mem_given_iff.1 h with ⟨record, hget, rfl⟩ | ⟨other, hother, hvalue⟩
  · rcases Facts.of_get?_record hget with hold | ⟨-, hvalue, -⟩
    · exact mem_given_iff.2 (.inl ⟨record, hold, rfl⟩)
    · exact mem_given_iff.2 (.inr ⟨rule, hrule, hvalue⟩)
  · exact mem_given_iff.2 (.inr ⟨other, hleft.subset hother, hvalue⟩)

/-- Whether facts are given two values does not depend on the order of the rules. -/
theorem Consistent.of_perm {s' : Consultation} (h : s.Consistent)
    (hfacts : s.facts.SameValues s'.facts) (hrules : s.rules.Perm s'.rules) :
    s'.Consistent := by
  have hgiven {e : String × String} (hmem : e ∈ s'.given) : e ∈ s.given := by
    obtain ⟨fact, value⟩ := e
    rcases mem_given_iff.1 hmem with ⟨record', hget', rfl⟩ | ⟨rule, hrule, hvalue⟩
    · obtain ⟨record, hget, hvalue⟩ :=
        (Facts.sameValues_iff.1 hfacts).1 fact record' hget'
      exact mem_given_iff.2 (.inl ⟨record, hget, hvalue⟩)
    · exact mem_given_iff.2 (.inr ⟨rule, hrules.mem_iff.2 hrule, hvalue⟩)
  intro e hmem e' hmem'
  exact h e (hgiven hmem) e' (hgiven hmem')

end Consultation

/-! ## Closed facts -/

/-- Whenever a rule held, what it infers is recorded with the values that it gives. -/
def Facts.Closed (facts : Facts) (rules : List Rule) : Prop :=
  ∀ rule ∈ rules, ∀ before, facts.Extends before → rule.condition.Finds before .yes →
    ∀ fact value, rule.consequences.get? fact = some value →
      ∃ record, facts.get? fact = some record ∧ record.value = value

namespace Sweeps

variable {limits : Limits} {rounds : Nat} {s s' : Consultation}
    {x : Except Fault Outcome}

/-- Sweeps give facts no other values. -/
theorem given (h : Sweeps limits rounds s x s') {fact value : String}
    (hgiven : (fact, value) ∈ s'.given) : (fact, value) ∈ s.given := by
  induction h with
  | limit _ => exact hgiven
  | circular hleft _ _ _ => exact Consultation.given_of_sublist hleft.sublist hgiven
  | decided hleft _ _ => exact Consultation.given_of_sublist hleft.sublist hgiven
  | asked hleft _ _ _ => exact Consultation.given_of_sublist hleft.sublist hgiven
  | fired hleft _ _ _ _ ih =>
      exact Consultation.given_of_applyRule hleft.sublist
        (hleft.mem_iff.2 (.inl (by simp)))
        (ih hgiven)

/-- The facts in the end are closed under the rules. -/
theorem closed (h : Sweeps limits rounds s x s') (hdecided : x = .ok .decided)
    (hconsistent : s.Consistent) : s'.facts.Closed s.rules := by
  obtain ⟨gone, hleft, hgone⟩ := h.spends
  intro rule hrule before hmore hyes fact value hvalue
  rcases hleft.mem_iff.1 hrule with hmem | hmem
  · cases hgone rule hmem with
    | ruledOut hbefore hno => exact absurd hno (hyes.not_no hmore hbefore)
    | fired _ _ hrecorded =>
        obtain ⟨record, hget⟩ := hrecorded fact (Rule.infers_iff.2 ⟨value, hvalue⟩)
        have hrecord :=
          h.given (Consultation.mem_given_iff.2 (.inl ⟨record, hget, rfl⟩))
        have hrule := Consultation.mem_given_iff.2 (.inr ⟨rule, hrule, hvalue⟩)
        exact ⟨record, hget, hconsistent _ hrecord _ hrule rfl⟩
  · -- A rule that is left is undecided now and did not hold before.
    obtain ⟨finding, heval, hmaybe, -⟩ := h.blocked hdecided rule hmem
    obtain ⟨f, hf, hfyes⟩ := hyes
    have hsame := rule.condition.verdict_of_extends hmore hf (by simp [hfyes]) heval
    simp [hmaybe, hfyes] at hsame

/-- Sweeps record nothing that is not in any closed facts. -/
theorem least (h : Sweeps limits rounds s x s') {facts : Facts}
    (hmore : facts.Extends s.facts) (hclosed : facts.Closed s.rules) :
    facts.Extends s'.facts := by
  induction h with
  | limit _ => exact hmore
  | circular _ _ _ _ => exact hmore
  | decided _ _ _ => exact hmore
  | asked _ _ _ _ => exact hmore
  | @fired _ s s' rule finding gone left x hleft hgone heval hyes hrest ih =>
      have hrule : rule ∈ s.rules := hleft.mem_iff.2 (.inl (by simp))
      refine ih ?_ fun other hother => hclosed other (hleft.sublist.subset hother)
      intro fact record hget
      rcases Facts.of_get?_record hget with hold | ⟨-, hvalue, -⟩
      · exact hmore fact record hold
      · exact hclosed rule hrule s.facts hmore
          ⟨finding, heval, hyes⟩ fact record.value hvalue

/-- When all is decided, the rules that are left are those that are undecided. -/
theorem left_perm (h : Sweeps limits rounds s x s') (hdecided : x = .ok .decided) :
    s'.rules.Perm
      (s.rules.filter fun rule => rule.condition.Finds s'.facts .maybe) := by
  obtain ⟨gone, hleft, hgone⟩ := h.spends
  have hnone : gone.filter (fun rule => rule.condition.Finds s'.facts .maybe) = [] := by
    refine List.filter_eq_nil_iff.2 fun rule hrule => ?_
    simpa using (hgone rule hrule).done.not_maybe
  have hall : s'.rules.filter (fun rule => rule.condition.Finds s'.facts .maybe) =
      s'.rules := by
    refine List.filter_eq_self.2 fun rule hrule => ?_
    simpa using (h.blocked hdecided rule hrule).finds
  have hfilter := hleft.perm.filter fun rule =>
      decide (rule.condition.Finds s'.facts .maybe)
  rw [List.filter_append, hnone, hall] at hfilter
  exact hfilter

/-- Whatever the order of the rules, sweeps record no more than other sweeps do
until all is decided. -/
theorem extends_of_perm {limits' : Limits} {rounds' : Nat} {t t' : Consultation}
    {y : Except Fault Outcome} (h : Sweeps limits rounds s x s')
    (h' : Sweeps limits' rounds' t y t') (hdecided : y = .ok .decided)
    (hfacts : t.facts.Extends s.facts) (hrules : t.rules.Perm s.rules)
    (hconsistent : t.Consistent) : t'.facts.Extends s'.facts := by
  have hclosed := h'.closed hdecided hconsistent
  exact h.least (h'.continues.keeps.extends.trans hfacts)
    fun rule hrule => hclosed rule (hrules.mem_iff.2 hrule)

end Sweeps

/-- Where two consultations have the same facts and, in whatever order, the same
rules, and no fact is given two values, forward chaining ends with the same facts
and the same rules, if it ends with both. -/
theorem rule_order_irrelevant (limits₁ limits₂ : Limits) (s₁ s₂ : Consultation)
    (hfacts : s₁.facts.SameValues s₂.facts) (hrules : s₁.rules.Perm s₂.rules)
    (hconsistent : s₁.Consistent)
    (hdecided₁ : (forward limits₁ s₁).result = .ok .decided)
    (hdecided₂ : (forward limits₂ s₂).result = .ok .decided) :
    (forward limits₁ s₁).state.facts.SameValues (forward limits₂ s₂).state.facts ∧
      (forward limits₁ s₁).state.rules.Perm (forward limits₂ s₂).state.rules := by
  have h₁ : Sweeps limits₁ limits₁.maxSteps s₁ _ (forward limits₁ s₁).state :=
    forwardFor_cases limits₁ limits₁.maxSteps s₁
  have h₂ : Sweeps limits₂ limits₂.maxSteps s₂ _ (forward limits₂ s₂).state :=
    forwardFor_cases limits₂ limits₂.maxSteps s₂
  obtain ⟨hfacts₁, hfacts₂⟩ := Facts.sameValues_iff.1 hfacts
  have hmore₁ := h₂.extends_of_perm h₁ hdecided₁ hfacts₁ hrules hconsistent
  have hmore₂ := h₁.extends_of_perm h₂ hdecided₂ hfacts₂ hrules.symm
    (hconsistent.of_perm hfacts hrules)
  refine ⟨Facts.sameValues_iff.2 ⟨hmore₁, hmore₂⟩, ?_⟩
  have hundecided (rule : Rule) :
      rule.condition.Finds (forward limits₁ s₁).state.facts .maybe ↔
        rule.condition.Finds (forward limits₂ s₂).state.facts .maybe :=
    ⟨.maybe_before hmore₁, .maybe_before hmore₂⟩
  have hleft₁ := h₁.left_perm hdecided₁
  have hleft₂ := h₂.left_perm hdecided₂
  simp only [hundecided] at hleft₁
  exact hleft₁.trans ((hrules.filter _).trans hleft₂.symm)

/-- There is smoke and no drill, and the bell does what the alarm does. -/
def smokeFacts : Facts :=
  Facts.initial.record
    (((KeyMap.empty.insert "smoke" "yes").insert "drill" "no").insert "bell" "$alarm")
    (.given "Defined in the knowledge base")

/-- Smoke sets the alarm off. -/
def alarmRule : Rule where
  condition := .equals "smoke" "yes"
  consequences := KeyMap.empty.insert "alarm" "on"

/-- One sleeps while there is no bell. -/
def sleepRule : Rule where
  condition := .negation (.equals "bell" "on")
  consequences := KeyMap.empty.insert "sleep" "yes"

/-- One leaves for an alarm or for a drill. -/
def leaveRule : Rule where
  condition := .any [.equals "alarm" "on", .equals "drill" "yes"]
  consequences := KeyMap.empty.insert "leave" "yes"

/-- In a strong wind the windows are shut. -/
def windowRule : Rule where
  condition := .equals "wind" "strong"
  consequences := KeyMap.empty.insert "windows" "shut"

/-- The rules with the one that the others wait for in front. -/
def alarmFirst : Consultation :=
  ⟨smokeFacts, [alarmRule, windowRule, leaveRule, sleepRule], [], []⟩

/-- The rules with the one that the others wait for behind them. -/
def alarmLast : Consultation :=
  ⟨smokeFacts, [sleepRule, leaveRule, windowRule, alarmRule], [], []⟩

/-- In either order one leaves and does not sleep, and the rule on the wind is left. -/
theorem smoke_in_either_order :
    (forward {} alarmFirst).state.facts.SameValues (forward {} alarmLast).state.facts ∧
      (forward {} alarmFirst).state.rules.Perm (forward {} alarmLast).state.rules ∧
      (forward {} alarmFirst).state.rules = [windowRule] ∧
      (forward {} alarmFirst).state.facts.lookup "leave" = .ok (some "yes") ∧
      (forward {} alarmFirst).state.facts.lookup "sleep" = .ok none := by
  obtain ⟨hfacts, hrules⟩ := rule_order_irrelevant {} {} alarmFirst alarmLast
    (fun _ => rfl) (by decide) (by decide) rfl rfl
  exact ⟨hfacts, hrules, rfl, rfl, rfl⟩

end Consult
