import Consult.Condition.Evaluation
import Consult.Proofs.Chain
import Mathlib.Data.List.Forall2

/-!
# What evaluation finds

A comparison is left undecided at one of four places and settled otherwise;
`Comparison.Found` lists them.  From there the findings on all conditions are
described by induction, and how they change when facts are added.

## Main results

* `evaluate_eq_ok_iff` — the finding on a comparison.
* `Condition.circular_of_evaluate` — evaluation fails for circular chains only.
* `Condition.evaluate_of_extends` — a verdict other than "maybe" outlasts new facts.
-/

namespace Consult

/-! ## Comparisons -/

/-- The finding on a comparison, by the place where its evaluation ends. -/
inductive Comparison.Found (c : Comparison) (facts : Facts) : Finding → Prop where
  | name {fact : String} (hname : facts.resolve c.name = .ok (.unknown fact)) :
      Found c facts (.missing fact)
  | fact {name : String} (hname : facts.resolve c.name = .ok (.literal name))
      (hnone : facts.get? name = none) : Found c facts (.missing name)
  | value {name fact : String} {record : Record}
      (hname : facts.resolve c.name = .ok (.literal name))
      (hget : facts.get? name = some record)
      (hvalue : facts.resolve record.value = .ok (.unknown fact)) :
        Found c facts (.missing fact)
  | expected {name actual fact : String} {record : Record}
      (hname : facts.resolve c.name = .ok (.literal name))
      (hget : facts.get? name = some record)
      (hvalue : facts.resolve record.value = .ok (.literal actual))
      (hexpected : facts.resolve c.value = .ok (.unknown fact)) :
        Found c facts (.missing fact)
  | settled {name actual expected : String} {record : Record}
      (hname : facts.resolve c.name = .ok (.literal name))
      (hget : facts.get? name = some record)
      (hvalue : facts.resolve record.value = .ok (.literal actual))
      (hexpected : facts.resolve c.value = .ok (.literal expected)) :
      Found c facts (.because (if c.relation.holds actual expected then .yes else .no)
        [.cause record.reason])

namespace Comparison

theorem evaluate_eq_ok_iff {c : Comparison} {facts : Facts} {f : Finding} :
    c.evaluate facts = .ok f ↔ c.Found facts f := by
  constructor
  · intro h
    unfold evaluate at h
    cases hname : facts.resolve c.name with
    | error fault => simp [hname, bind, Except.bind] at h
    | ok r =>
        cases r with
        | unknown fact =>
            simp only [hname, bind, Except.bind, pure, Except.pure,
              Except.ok.injEq] at h
            exact h ▸ .name hname
        | literal name =>
            simp only [hname, bind, Except.bind] at h
            cases hget : facts.get? name with
            | none =>
                simp only [hget, pure, Except.pure, Except.ok.injEq] at h
                exact h ▸ .fact hname hget
            | some record =>
                simp only [hget] at h
                cases hvalue : facts.resolve record.value with
                | error fault => simp [hvalue] at h
                | ok r =>
                    cases r with
                    | unknown fact =>
                        simp only [hvalue, pure, Except.pure, Except.ok.injEq] at h
                        exact h ▸ .value hname hget hvalue
                    | literal actual =>
                        simp only [hvalue] at h
                        cases hexpected : facts.resolve c.value with
                        | error fault => simp [hexpected] at h
                        | ok r =>
                            cases r with
                            | unknown fact =>
                                simp only [hexpected, pure, Except.pure,
                                  Except.ok.injEq] at h
                                exact h ▸ .expected hname hget hvalue hexpected
                            | literal expected =>
                                simp only [hexpected, pure, Except.pure,
                                  Except.ok.injEq] at h
                                exact h ▸ .settled hname hget hvalue hexpected
  · intro h
    unfold evaluate
    cases h with
    | name hname => simp [hname, bind, Except.bind, pure, Except.pure]
    | fact hname hnone => simp [hname, hnone, bind, Except.bind, pure, Except.pure]
    | value hname hget hvalue =>
        simp [hname, hget, hvalue, bind, Except.bind, pure, Except.pure]
    | expected hname hget hvalue hexpected =>
        simp [hname, hget, hvalue, hexpected, bind, Except.bind, pure, Except.pure]
    | settled hname hget hvalue hexpected =>
        simp [hname, hget, hvalue, hexpected, bind, Except.bind, pure, Except.pure]

/-- A comparison cannot be evaluated only if one of its chains is circular. -/
theorem circular_of_evaluate {c : Comparison} {facts : Facts} {fault : Fault}
    (h : c.evaluate facts = .error fault) : ∃ chain, fault = .circular chain := by
  have hcircular {text : String} {fault' : Fault}
      (hr : facts.resolve text = .error fault')
      (heq : fault' = fault) : ∃ chain, fault = .circular chain :=
    heq ▸ Facts.circular_of_resolve hr
  unfold evaluate at h
  cases hname : facts.resolve c.name with
  | error fault' => exact hcircular hname (by simpa [hname, bind, Except.bind] using h)
  | ok r =>
      cases r with
      | unknown fact => simp [hname, bind, Except.bind, pure, Except.pure] at h
      | literal name =>
          simp only [hname, bind, Except.bind] at h
          cases hget : facts.get? name with
          | none => simp [hget, pure, Except.pure] at h
          | some record =>
              simp only [hget] at h
              cases hvalue : facts.resolve record.value with
              | error fault' => exact hcircular hvalue (by simpa [hvalue] using h)
              | ok r =>
                  cases r with
                  | unknown fact => simp [hvalue, pure, Except.pure] at h
                  | literal actual =>
                      simp only [hvalue] at h
                      cases hexpected : facts.resolve c.value with
                      | error fault' =>
                          exact hcircular hexpected (by simpa [hexpected] using h)
                      | ok r => cases r <;> simp [hexpected, pure, Except.pure] at h

end Comparison

/-! ## Negations and groups -/

namespace Condition

theorem evaluate_compare_eq_ok_iff {c : Comparison} {facts : Facts} {f : Finding} :
    (compare c).evaluate facts = .ok f ↔ c.Found facts f := by
  rw [evaluate]
  exact Comparison.evaluate_eq_ok_iff

theorem evaluate_negation_eq_ok_iff {c : Condition} {facts : Facts} {f : Finding} :
    (negation c).evaluate facts = .ok f ↔
      ∃ part, c.evaluate facts = .ok part ∧ f = part.negate := by
  rw [evaluate]
  cases c.evaluate facts with
  | error fault => simp [bind, Except.bind]
  | ok part => simp [bind, Except.bind, pure, Except.pure, eq_comm]

theorem evaluateAll_eq_ok_iff {facts : Facts} {cs : List Condition} :
    ∀ {fs : List Finding}, evaluateAll facts cs = .ok fs ↔
      List.Forall₂ (fun c f => evaluate facts c = .ok f) cs fs := by
  induction cs with
  | nil =>
      intro fs
      simp [evaluateAll, pure, Except.pure, eq_comm]
  | cons c cs ih =>
      intro fs
      rw [evaluateAll, List.forall₂_cons_left_iff]
      cases hc : c.evaluate facts with
      | error fault => simp [bind, Except.bind]
      | ok f =>
          cases hcs : evaluateAll facts cs with
          | error fault =>
              simp only [bind, Except.bind, reduceCtorEq, false_iff]
              rintro ⟨_, fs', _, hrest, -⟩
              simp [ih.2 hrest] at hcs
          | ok fs' =>
              simp only [bind, Except.bind, pure, Except.pure, Except.ok.injEq]
              constructor
              · rintro rfl
                exact ⟨f, fs', rfl, ih.1 hcs, rfl⟩
              · rintro ⟨_, fs'', rfl, hrest, rfl⟩
                have hsame : fs' = fs'' := Except.ok.inj (hcs.symm.trans (ih.2 hrest))
                rw [hsame]

theorem evaluate_atLeast_eq_ok_iff {k : Nat} {cs : List Condition} {facts : Facts}
    {f : Finding} :
    (atLeast k cs).evaluate facts = .ok f ↔
      ∃ parts, List.Forall₂ (fun c f => evaluate facts c = .ok f) cs parts ∧
        f = .ofGroup k parts := by
  simp only [← evaluateAll_eq_ok_iff]
  rw [evaluate]
  cases evaluateAll facts cs with
  | error fault => simp [bind, Except.bind]
  | ok parts => simp [bind, Except.bind, pure, Except.pure, eq_comm]

/-- The finding on a member is one of the findings on the members. -/
theorem mem_of_forall₂_evaluate {facts : Facts} {cs : List Condition}
    {parts : List Finding}
    (hparts : List.Forall₂ (fun c f => evaluate facts c = .ok f) cs parts)
    {c : Condition} (hc : c ∈ cs) {part : Finding}
    (hpart : c.evaluate facts = .ok part) : part ∈ parts := by
  obtain ⟨i, hi, rfl⟩ := List.getElem_of_mem hc
  have hi' : i < parts.length := hparts.length_eq ▸ hi
  have hsame : parts[i] = part := Except.ok.inj ((hparts.get hi hi').symm.trans hpart)
  exact hsame ▸ List.getElem_mem hi'

/-- Each of the findings on the members is the finding on one of them. -/
theorem exists_mem_of_forall₂_evaluate {facts : Facts} {cs : List Condition}
    {parts : List Finding}
    (hparts : List.Forall₂ (fun c f => evaluate facts c = .ok f) cs parts)
    {part : Finding} (hpart : part ∈ parts) :
    ∃ c ∈ cs, c.evaluate facts = .ok part := by
  obtain ⟨i, hi, rfl⟩ := List.getElem_of_mem hpart
  have hi' : i < cs.length := hparts.length_eq ▸ hi
  exact ⟨cs[i], List.getElem_mem hi', hparts.get hi' hi⟩

/-- The grounds of the finding on a group are findings on members. -/
theorem exists_grounds_of_ofGroup {facts : Facts} {k : Nat} {cs : List Condition}
    {parts : List Finding}
    (hparts : List.Forall₂ (fun c f => evaluate facts c = .ok f) cs parts) :
    ∃ bearing : List Finding, Finding.ofGroup k parts =
        .because (Verdict.atLeast k (parts.map (·.verdict))) (bearing.map .finding) ∧
      ∀ part ∈ bearing, ∃ c ∈ cs, c.evaluate facts = .ok part := by
  refine ⟨_, rfl, fun part hmem => ?_⟩
  have hmem : part ∈ parts := by
    split at hmem
    · exact hmem
    · exact List.mem_of_mem_filter hmem
  exact exists_mem_of_forall₂_evaluate hparts hmem

/-- A group cannot be evaluated only if a member of it cannot. -/
theorem exists_mem_of_evaluateAll {facts : Facts} {cs : List Condition} {fault : Fault}
    (h : evaluateAll facts cs = .error fault) :
    ∃ c ∈ cs, c.evaluate facts = .error fault := by
  induction cs with
  | nil => cases h
  | cons c cs ih =>
      rw [evaluateAll] at h
      cases hc : c.evaluate facts with
      | error fault' =>
          simp only [hc, bind, Except.bind, Except.error.injEq] at h
          exact ⟨c, List.mem_cons_self, h ▸ hc⟩
      | ok f =>
          cases hcs : evaluateAll facts cs with
          | error fault' =>
              simp only [hc, hcs, bind, Except.bind, Except.error.injEq] at h
              obtain ⟨d, hd, heval⟩ := ih (h ▸ hcs)
              exact ⟨d, List.mem_cons_of_mem _ hd, heval⟩
          | ok fs => simp [hc, hcs, bind, Except.bind, pure, Except.pure] at h

/-- A condition that cannot be evaluated leads to a circular chain of variables. -/
theorem circular_of_evaluate {facts : Facts} (c : Condition) : ∀ {fault : Fault},
    c.evaluate facts = .error fault → ∃ chain, fault = .circular chain := by
  induction c using Condition.induction with
  | compare c =>
      intro fault h
      exact Comparison.circular_of_evaluate h
  | negation c ih =>
      intro fault h
      cases hc : c.evaluate facts with
      | error fault' =>
          simp only [evaluate, hc, bind, Except.bind, Except.error.injEq] at h
          exact ih (h ▸ hc)
      | ok part => simp [evaluate, hc, bind, Except.bind, pure, Except.pure] at h
  | atLeast k cs ih =>
      intro fault h
      cases hcs : evaluateAll facts cs with
      | error fault' =>
          simp only [evaluate, hcs, bind, Except.bind, Except.error.injEq] at h
          obtain ⟨c, hc, heval⟩ := exists_mem_of_evaluateAll hcs
          exact ih c hc (h ▸ heval)
      | ok parts => simp [evaluate, hcs, bind, Except.bind, pure, Except.pure] at h

/-- The condition is found to have this verdict, given these facts. -/
def Finds (facts : Facts) (v : Verdict) (c : Condition) : Prop :=
  ∃ f, c.evaluate facts = .ok f ∧ f.verdict = v

theorem finds_iff {facts : Facts} {v : Verdict} {c : Condition} {f : Finding}
    (hf : c.evaluate facts = .ok f) : c.Finds facts v ↔ f.verdict = v := by
  constructor
  · rintro ⟨g, hg, hv⟩
    obtain rfl : g = f := Except.ok.inj (hg.symm.trans hf)
    exact hv
  · intro hv
    exact ⟨f, hf, hv⟩

instance (facts : Facts) (v : Verdict) (c : Condition) : Decidable (c.Finds facts v) :=
  match heval : c.evaluate facts with
  | .ok _ => decidable_of_iff _ (finds_iff heval).symm
  | .error _ => .isFalse fun ⟨_, hok, _⟩ => by simp [heval] at hok

/-- The condition holds, given these facts. -/
def Holds (facts : Facts) (c : Condition) : Prop :=
  ∃ f, c.evaluate facts = .ok f ∧ f.verdict = .yes

theorem holds_iff {facts : Facts} {c : Condition} {f : Finding}
    (hf : c.evaluate facts = .ok f) : c.Holds facts ↔ f.verdict = .yes :=
  finds_iff hf

instance (facts : Facts) (c : Condition) : Decidable (c.Holds facts) :=
  inferInstanceAs (Decidable (c.Finds facts .yes))

end Condition

/-! ## More facts -/

/-- `v.Firms v'`: new facts may turn the verdict `v` into `v'`.  Only "maybe"
changes. -/
def Verdict.Firms (v v' : Verdict) : Prop := v = .maybe ∨ v' = v

namespace Verdict

theorem Firms.flip {v v' : Verdict} (h : v.Firms v') : v.flip.Firms v'.flip := by
  rcases h with rfl | rfl
  · exact .inl rfl
  · exact .inr rfl

/-- Of the members of a group, no fewer hold, and no more hold or may hold. -/
private theorem counts_of_firms {vs vs' : List Verdict}
    (h : List.Forall₂ Firms vs vs') :
    vs.count yes ≤ vs'.count yes ∧
      vs'.count yes + vs'.count maybe ≤ vs.count yes + vs.count maybe := by
  induction h with
  | nil => exact ⟨Nat.le_refl _, Nat.le_refl _⟩
  | @cons v v' vs vs' hv _ ih =>
      obtain ⟨hyes, hopen⟩ := ih
      simp only [List.count_cons]
      rcases hv with rfl | rfl
      · cases v' <;> constructor <;> simp <;> omega
      · cases v' <;> constructor <;> simp <;> omega

theorem atLeast_firms (k : Nat) {vs vs' : List Verdict}
    (h : List.Forall₂ Firms vs vs') :
    (atLeast k vs).Firms (atLeast k vs') := by
  obtain ⟨hyes, hopen⟩ := counts_of_firms h
  unfold atLeast ofCounts Firms
  by_cases hk : k ≤ vs.count yes
  · right
    rw [if_pos hk, if_pos (by omega)]
  · by_cases hk' : k ≤ vs.count yes + vs.count maybe
    · left
      rw [if_neg hk, if_pos hk']
    · right
      rw [if_neg hk, if_neg hk', if_neg (by omega), if_neg (by omega)]

end Verdict

/-- A chain that ends when facts are added ended before, in the same literal or
at a fact that was not recorded. -/
private theorem Facts.Extends.resolve_before {facts facts' : Facts}
    (h : facts'.Extends facts) {text : String} {r' : Resolution}
    (hr' : facts'.resolve text = .ok r') :
    (∃ fact, facts.resolve text = .ok (.unknown fact)) ∨
      ∃ value, facts.resolve text = .ok (.literal value) ∧ r' = .literal value := by
  obtain ⟨r, hr⟩ := h.resolve_ok hr'
  cases r with
  | unknown fact => exact .inl ⟨fact, hr⟩
  | literal value =>
      exact .inr ⟨value, hr, Except.ok.inj (hr'.symm.trans (h.resolve_literal hr))⟩

theorem Comparison.evaluate_of_extends {c : Comparison} {facts facts' : Facts}
    {f' : Finding} (h : facts'.Extends facts) (hf' : c.evaluate facts' = .ok f') :
    ∃ f, c.evaluate facts = .ok f ∧ f.verdict.Firms f'.verdict := by
  have hmissing {fact : String} (hfound : c.Found facts (.missing fact)) :
      ∃ f, c.evaluate facts = .ok f ∧ f.verdict.Firms f'.verdict :=
    ⟨_, evaluate_eq_ok_iff.2 hfound, .inl rfl⟩
  -- Name, recorded value and expected value are followed in turn.  Each that
  -- leads to a literal leads to the same one in both stores.
  cases hname' : facts'.resolve c.name with
  | error fault => simp [evaluate, hname', bind, Except.bind] at hf'
  | ok r' =>
  rcases h.resolve_before hname' with ⟨fact, hname⟩ | ⟨name, hname, rfl⟩
  · exact hmissing (.name hname)
  cases hget : facts.get? name with
  | none => exact hmissing (.fact hname hget)
  | some record =>
  obtain ⟨record', hget', hsame⟩ := h name record hget
  cases hvalue' : facts'.resolve record'.value with
  | error fault => simp [evaluate, hname', hget', hvalue', bind, Except.bind] at hf'
  | ok r' =>
  rcases h.resolve_before (hsame ▸ hvalue') with ⟨fact, hvalue⟩ | ⟨actual, hvalue, rfl⟩
  · exact hmissing (.value hname hget hvalue)
  cases hexpected' : facts'.resolve c.value with
  | error fault =>
      simp [evaluate, hname', hget', hvalue', hexpected', bind, Except.bind] at hf'
  | ok r' =>
  rcases h.resolve_before hexpected' with ⟨fact, hexpected⟩ | ⟨expected, hexpected, rfl⟩
  · exact hmissing (.expected hname hget hvalue hexpected)
  have hsettled' := evaluate_eq_ok_iff.2 (.settled hname' hget' hvalue' hexpected')
  obtain rfl := Except.ok.inj (hf'.symm.trans hsettled')
  exact ⟨_, evaluate_eq_ok_iff.2 (.settled hname hget hvalue hexpected), .inr rfl⟩

/-- If a condition can be evaluated after facts have been added, it could be
before, and its verdict has only become firmer. -/
theorem Condition.evaluate_of_extends {facts facts' : Facts} (h : facts'.Extends facts)
    (c : Condition) : ∀ {f' : Finding}, c.evaluate facts' = .ok f' →
      ∃ f, c.evaluate facts = .ok f ∧ f.verdict.Firms f'.verdict := by
  induction c using Condition.induction with
  | compare c =>
      intro f' hf'
      exact Comparison.evaluate_of_extends h hf'
  | negation c ih =>
      intro f' hf'
      obtain ⟨part', hpart', rfl⟩ := evaluate_negation_eq_ok_iff.1 hf'
      obtain ⟨part, hpart, hfirms⟩ := ih hpart'
      exact ⟨part.negate, evaluate_negation_eq_ok_iff.2 ⟨part, hpart, rfl⟩, hfirms.flip⟩
  | atLeast k cs ih =>
      intro f' hf'
      obtain ⟨parts', hparts', rfl⟩ := evaluate_atLeast_eq_ok_iff.1 hf'
      obtain ⟨parts, hparts, hfirms⟩ : ∃ parts,
          List.Forall₂ (fun c f => evaluate facts c = .ok f) cs parts ∧
            List.Forall₂ Verdict.Firms (parts.map (·.verdict))
            (parts'.map (·.verdict)) := by
        clear hf'
        induction hparts' with
        | nil => exact ⟨[], .nil, .nil⟩
        | @cons c part' cs parts' hpart' _ ihtail =>
            obtain ⟨part, hpart, hfirms⟩ := ih c List.mem_cons_self hpart'
            obtain ⟨parts, hparts, hrest⟩ :=
              ihtail fun d hd => ih d (List.mem_cons_of_mem _ hd)
            exact ⟨part :: parts, .cons hpart hparts, .cons hfirms hrest⟩
      exact ⟨.ofGroup k parts, evaluate_atLeast_eq_ok_iff.2 ⟨parts, hparts, rfl⟩,
        Verdict.atLeast_firms k hfirms⟩

end Consult
