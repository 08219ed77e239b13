import Consult.Facts
import Mathlib.Data.List.Perm.Subperm

/-!
# Chains of variables

`Facts.resolve` follows a chain of variables with as many links as there are
recorded facts.  This file gives the chain itself, as a relation without a
bound: `Facts.Leads` lists the facts that a text leads through and says where it
ends.  The two agree, so a text cannot be resolved exactly if its chain never
ends, and what is said about chains holds of `resolve` whatever the bound.

Nothing here depends on the reasons of facts, and a fact that is added later can
only lengthen a chain that waits for it.

## Main results

* `resolve_eq_ok_iff` — a text is resolved to where its chain ends.
* `circular_of_resolve` — a text that cannot be resolved has a circular chain.
* `lookup_eq_some_iff` — when a name or a variable has a value.
* `Leads.of_extends` — a chain stays as it is until the fact that it waits for is
  recorded.
* `Extends.resolve_ok` — a chain that ends once facts are added ended before.
-/

namespace Consult

namespace Facts

/-! ## Where a chain leads -/

/-- `facts.Leads through text r`: from `text` the chain of variables leads
through the recorded facts `through`, in this order, to `r`. -/
inductive Leads (facts : Facts) : List String → String → Resolution → Prop where
  | literal {text : String} (ht : target? text = none) :
      Leads facts [] text (.literal text)
  | unknown {text fact : String} (ht : target? text = some fact)
      (hnone : facts.get? fact = none) : Leads facts [] text (.unknown fact)
  | link {text fact : String} {record : Record} {through : List String} {r : Resolution}
      (ht : target? text = some fact) (hget : facts.get? fact = some record)
      (hrest : Leads facts through record.value r) :
        Leads facts (fact :: through) text r

variable {facts : Facts}

/-- A text has one chain. -/
theorem Leads.unique {through through' : List String} {text : String}
    {r r' : Resolution} (h : facts.Leads through text r)
    (h' : facts.Leads through' text r') :
    through = through' ∧ r = r' := by
  induction h generalizing through' with
  | literal ht =>
      cases h' with
      | literal _ => exact ⟨rfl, rfl⟩
      | unknown ht' _ => simp [ht] at ht'
      | link ht' _ _ => simp [ht] at ht'
  | unknown ht hnone =>
      cases h' with
      | literal ht' => simp [ht] at ht'
      | unknown ht' _ =>
          obtain rfl : _ = _ := Option.some.inj (ht.symm.trans ht')
          exact ⟨rfl, rfl⟩
      | link ht' hget' _ =>
          obtain rfl : _ = _ := Option.some.inj (ht.symm.trans ht')
          simp [hnone] at hget'
  | link ht hget _ ih =>
      cases h' with
      | literal ht' => simp [ht] at ht'
      | unknown ht' hnone' =>
          obtain rfl : _ = _ := Option.some.inj (ht.symm.trans ht')
          simp [hnone'] at hget
      | link ht' hget' hrest' =>
          obtain rfl : _ = _ := Option.some.inj (ht.symm.trans ht')
          obtain rfl : _ = _ := Option.some.inj (hget.symm.trans hget')
          obtain ⟨rfl, rfl⟩ := ih hrest'
          exact ⟨rfl, rfl⟩

/-- The facts on a chain are recorded, and each starts a chain no longer than
the whole one. -/
private theorem Leads.of_mem {through : List String} {text : String} {r : Resolution}
    (h : facts.Leads through text r) {fact : String} (hmem : fact ∈ through) :
    fact ∈ facts.keys ∧ ∀ other, target? other = some fact →
      ∃ through', through'.length ≤ through.length ∧ facts.Leads through' other r := by
  induction h with
  | literal _ => simp at hmem
  | unknown _ _ => simp at hmem
  | link ht hget hrest ih =>
      rcases List.mem_cons.1 hmem with rfl | hmem
      · refine ⟨KeyMap.mem_keys_iff.2 ⟨_, hget⟩, fun other hother => ?_⟩
        exact ⟨_, Nat.le_refl _, .link hother hget hrest⟩
      · obtain ⟨hkey, hchain⟩ := ih hmem
        refine ⟨hkey, fun other hother => ?_⟩
        obtain ⟨through', hlen, hlead⟩ := hchain other hother
        exact ⟨through', by simp only [List.length_cons]; omega, hlead⟩

/-- A chain that ends passes no fact twice. -/
theorem Leads.nodup {through : List String} {text : String} {r : Resolution}
    (h : facts.Leads through text r) : through.Nodup := by
  induction h with
  | literal _ => exact List.nodup_nil
  | unknown _ _ => exact List.nodup_nil
  | @link text fact record through r ht hget hrest ih =>
      refine List.nodup_cons.2 ⟨fun hmem => ?_, ih⟩
      -- The text itself would lead to the same end over a shorter chain.
      obtain ⟨through', hlen, hlead⟩ := (hrest.of_mem hmem).2 text ht
      have heq : fact :: through = through' :=
        ((Leads.link ht hget hrest).unique hlead).1
      rw [← heq, List.length_cons] at hlen
      omega

/-- A chain that ends has no more links than there are facts. -/
theorem Leads.length_le {through : List String} {text : String} {r : Resolution}
    (h : facts.Leads through text r) : through.length ≤ facts.size := by
  have hsub : through ⊆ facts.keys := fun fact hmem => (h.of_mem hmem).1
  have hlen : through.length ≤ facts.keys.length :=
    (List.subperm_of_subset h.nodup hsub).length_le
  simpa [KeyMap.keys, KeyMap.size] using hlen

/-! ## Following it -/

private theorem leads_of_follow {links : Nat} {visited : List String} {text : String}
    {r : Resolution} (h : facts.follow links visited text = .ok r) :
    ∃ through, facts.Leads through text r := by
  fun_induction follow facts links visited text with
  | case1 links visited text ht =>
      obtain rfl := Except.ok.inj h
      exact ⟨[], .literal ht⟩
  | case2 links visited text fact ht hmem => cases h
  | case3 links visited text fact ht hnew hnone =>
      obtain rfl := Except.ok.inj h
      exact ⟨[], .unknown ht hnone⟩
  | case4 visited text fact ht hnew record hget => cases h
  | case5 visited text fact ht hnew record hget links ih =>
      obtain ⟨through, hrest⟩ := ih h
      exact ⟨fact :: through, .link ht hget hrest⟩

/-- The chain is followed to its end if the links suffice and every text visited
before has a longer chain. -/
private theorem follow_of_leads {through : List String} {text : String} {r : Resolution}
    (h : facts.Leads through text r) :
    ∀ (links : Nat) (visited : List String), through.length ≤ links →
      (∀ other ∈ visited, ∀ through' r', facts.Leads through' other r' →
        through.length < through'.length) →
      facts.follow links visited text = .ok r := by
  induction h with
  | literal ht =>
      intro links visited _ _
      unfold follow
      simp [ht, pure, Except.pure]
  | @unknown text fact ht hnone =>
      intro links visited _ hvisited
      have hnew : text ∉ visited := fun hmem =>
        Nat.lt_irrefl _ (hvisited text hmem _ _ (.unknown ht hnone))
      unfold follow
      simp [ht, hnew, hnone, pure, Except.pure]
  | @link text fact record through r ht hget hrest ih =>
      intro links visited hlinks hvisited
      have hnew : text ∉ visited := fun hmem =>
        Nat.lt_irrefl _ (hvisited text hmem _ _ (.link ht hget hrest))
      cases links with
      | zero => simp at hlinks
      | succ links =>
          have hlen : through.length ≤ links := by
            simpa using hlinks
          have hlonger : ∀ other ∈ text :: visited, ∀ through' r',
              facts.Leads through' other r' → through.length < through'.length := by
            intro other hmem through' r' hlead
            rcases List.mem_cons.1 hmem with rfl | hmem
            · obtain ⟨rfl, -⟩ := (Leads.link ht hget hrest).unique hlead
              simp
            · have := hvisited other hmem through' r' hlead
              simp only [List.length_cons] at this
              omega
          unfold follow
          simp only [ht, hnew, hget, if_false]
          exact ih links (text :: visited) hlen hlonger

/-- A text is resolved to where its chain ends. -/
theorem resolve_eq_ok_iff {text : String} {r : Resolution} :
    facts.resolve text = .ok r ↔ ∃ through, facts.Leads through text r := by
  constructor
  · exact leads_of_follow
  · rintro ⟨through, h⟩
    exact follow_of_leads h _ _ h.length_le (by simp)

private theorem circular_of_follow {links : Nat} {visited : List String} {text : String}
    {fault : Fault} (h : facts.follow links visited text = .error fault) :
    ∃ chain, fault = .circular chain := by
  fun_induction follow facts links visited text with
  | case1 links visited text ht => cases h
  | case2 links visited text fact ht hmem => exact ⟨_, (Except.error.inj h).symm⟩
  | case3 links visited text fact ht hnew hnone => cases h
  | case4 visited text fact ht hnew record hget => exact ⟨_, (Except.error.inj h).symm⟩
  | case5 visited text fact ht hnew record hget links ih => exact ih h

/-- A text that cannot be resolved has a circular chain. -/
theorem circular_of_resolve {text : String} {fault : Fault}
    (h : facts.resolve text = .error fault) : ∃ chain, fault = .circular chain :=
  circular_of_follow h

/-- What a text waits for is not recorded. -/
theorem get?_of_resolve_unknown {text fact : String}
    (h : facts.resolve text = .ok (.unknown fact)) : facts.get? fact = none := by
  obtain ⟨through, hlead⟩ := resolve_eq_ok_iff.1 h
  generalize hr : Resolution.unknown fact = r at hlead
  induction hlead with
  | literal _ => cases hr
  | unknown _ hnone => cases hr; exact hnone
  | link ht hget hrest ih => exact ih (resolve_eq_ok_iff.2 ⟨_, hr ▸ hrest⟩) hr

/-- A variable is resolved to what the value of its fact is resolved to. -/
theorem resolve_of_target? {text fact : String} {record : Record} {r : Resolution}
    (ht : target? text = some fact) (hget : facts.get? fact = some record) :
    facts.resolve text = .ok r ↔ facts.resolve record.value = .ok r := by
  simp only [resolve_eq_ok_iff]
  constructor
  · rintro ⟨through, h⟩
    cases h with
    | literal ht' => simp [ht] at ht'
    | unknown ht' hnone =>
        obtain rfl : _ = _ := Option.some.inj (ht.symm.trans ht')
        simp [hget] at hnone
    | link ht' hget' hrest =>
        obtain rfl : _ = _ := Option.some.inj (ht.symm.trans ht')
        obtain rfl : _ = _ := Option.some.inj (hget.symm.trans hget')
        exact ⟨_, hrest⟩
  · rintro ⟨through, h⟩
    exact ⟨_, .link ht hget h⟩

/-- A fact has a value if it is recorded and its chain ends in a literal. -/
theorem lookup_eq_some_iff {text value : String} :
    facts.lookup text = .ok (some value) ↔ ∃ fact record,
      facts.resolve text = .ok (.literal fact) ∧ facts.get? fact = some record ∧
        facts.resolve record.value = .ok (.literal value) := by
  constructor
  · intro h
    unfold lookup at h
    cases hr : facts.resolve text with
    | error fault => simp [hr, bind, Except.bind] at h
    | ok r =>
        cases r with
        | unknown fact => simp [hr, bind, Except.bind, pure, Except.pure] at h
        | literal fact =>
            have hfact : isVariable fact = false := isVariable_of_resolve hr
            simp only [hr, bind, Except.bind, Facts.value, hfact, Bool.false_eq_true,
              if_false] at h
            cases hget : facts.get? fact with
            | none => simp [hget, pure, Except.pure] at h
            | some record =>
                cases hvalue : facts.resolve record.value with
                | error fault => simp [hget, hvalue] at h
                | ok r =>
                    cases r with
                    | unknown other => simp [hget, hvalue, pure, Except.pure] at h
                    | literal literal =>
                        simp only [hget, hvalue, pure, Except.pure, Except.ok.injEq,
                          Option.some.injEq] at h
                        exact ⟨fact, record, rfl, hget, h ▸ hvalue⟩
  · rintro ⟨fact, record, hr, hget, hvalue⟩
    have hfact : isVariable fact = false := isVariable_of_resolve hr
    simp [lookup, Facts.value, hr, hfact, hget, hvalue, bind, Except.bind, pure,
      Except.pure]

/-! ## More facts -/

/-- `facts'.Extends facts`: every fact of `facts` has the same value in `facts'`,
for whatever reason. -/
def Extends (facts' facts : Facts) : Prop :=
  ∀ fact record, facts.get? fact = some record →
    ∃ record', facts'.get? fact = some record' ∧ record'.value = record.value

theorem Extends.refl (facts : Facts) : facts.Extends facts :=
  fun _ record h => ⟨record, h, rfl⟩

theorem Extends.trans {facts facts' facts'' : Facts} (h : facts''.Extends facts')
    (h' : facts'.Extends facts) : facts''.Extends facts := by
  intro fact record hget
  obtain ⟨record', hget', hvalue'⟩ := h' fact record hget
  obtain ⟨record'', hget'', hvalue''⟩ := h fact record' hget'
  exact ⟨record'', hget'', hvalue''.trans hvalue'⟩

/-- A fact that was not recorded may be added. -/
theorem extends_insert {fact : String} (record : Record)
    (hnew : facts.get? fact = none) :
    Facts.Extends (facts.insert fact record) facts := by
  intro other record' hget
  have hother : other ≠ fact := by
    rintro rfl
    exact nomatch hget.symm.trans hnew
  exact ⟨record', (KeyMap.get?_insert_of_ne _ _ hother).trans hget, rfl⟩

variable {facts' : Facts}

/-- A chain stays as it is when facts are added, unless the fact that it waits for
is among them. -/
theorem Leads.of_extends {through : List String} {text : String} {r : Resolution}
    (h : facts'.Extends facts) (hlead : facts.Leads through text r)
    (hunknown : ∀ fact, r = .unknown fact → facts'.get? fact = none) :
    facts'.Leads through text r := by
  induction hlead with
  | literal ht => exact .literal ht
  | unknown ht _ => exact .unknown ht (hunknown _ rfl)
  | @link text fact record through r ht hget _ ih =>
      obtain ⟨record', hget', hvalue⟩ := h fact record hget
      have hnext := ih hunknown
      rw [← hvalue] at hnext
      exact .link ht hget' hnext

/-- A chain that ends in a literal keeps its end when facts are added. -/
theorem Extends.resolve_literal (h : facts'.Extends facts) {text value : String}
    (hr : facts.resolve text = .ok (.literal value)) :
    facts'.resolve text = .ok (.literal value) := by
  obtain ⟨through, hlead⟩ := resolve_eq_ok_iff.1 hr
  exact resolve_eq_ok_iff.2 ⟨through, hlead.of_extends h nofun⟩

/-- A chain that waits for a fact waits for it until it is recorded. -/
theorem Extends.resolve_unknown (h : facts'.Extends facts) {text fact : String}
    (hr : facts.resolve text = .ok (.unknown fact)) (hnone : facts'.get? fact = none) :
    facts'.resolve text = .ok (.unknown fact) := by
  obtain ⟨through, hlead⟩ := resolve_eq_ok_iff.1 hr
  refine resolve_eq_ok_iff.2 ⟨through, hlead.of_extends h fun other hother => ?_⟩
  cases hother
  exact hnone

/-- A chain that ends when facts are added ended before. -/
theorem Extends.resolve_ok (h : facts'.Extends facts) {text : String} {r' : Resolution}
    (hr : facts'.resolve text = .ok r') : ∃ r, facts.resolve text = .ok r := by
  obtain ⟨through, hlead⟩ := resolve_eq_ok_iff.1 hr
  induction hlead with
  | literal ht => exact ⟨_, resolve_eq_ok_iff.2 ⟨[], .literal ht⟩⟩
  | @unknown text fact ht hnone =>
      have hnone' : facts.get? fact = none := by
        cases hget : facts.get? fact with
        | none => rfl
        | some record =>
            obtain ⟨record', hget', -⟩ := h fact record hget
            simp [hnone] at hget'
      exact ⟨_, resolve_eq_ok_iff.2 ⟨[], .unknown ht hnone'⟩⟩
  | @link text fact record' through r ht hget' hrest ih =>
      cases hget : facts.get? fact with
      | none => exact ⟨_, resolve_eq_ok_iff.2 ⟨[], .unknown ht hget⟩⟩
      | some record =>
          obtain ⟨record'', hget'', hvalue⟩ := h fact record hget
          obtain rfl : _ = _ := Option.some.inj (hget''.symm.trans hget')
          obtain ⟨r₀, hr₀⟩ := ih (resolve_eq_ok_iff.2 ⟨_, hrest⟩)
          rw [hvalue] at hr₀
          exact ⟨r₀, (resolve_of_target? ht hget).2 hr₀⟩

/-- A name or a variable that has a value keeps it. -/
theorem Extends.lookup_some (h : facts'.Extends facts) {text value : String}
    (hlookup : facts.lookup text = .ok (some value)) :
    facts'.lookup text = .ok (some value) := by
  obtain ⟨fact, record, hr, hget, hvalue⟩ := lookup_eq_some_iff.1 hlookup
  obtain ⟨record', hget', hsame⟩ := h fact record hget
  have hvalue' := h.resolve_literal hvalue
  rw [← hsame] at hvalue'
  exact lookup_eq_some_iff.2 ⟨fact, record', h.resolve_literal hr, hget', hvalue'⟩

end Facts

end Consult
