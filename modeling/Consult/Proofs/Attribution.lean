import Consult.Proofs.Waiting

/-!
# What can unblock a condition

The grounds of an undecided finding name only the undecided parts of the condition,
and these in turn only the facts that they wait for.  The parts that are settled
have left no trace in it, and they stay settled.  So as long as none of the facts
that it waits for is recorded, the finding is the same to the last ground, whatever
else is recorded, and for whatever reasons.

## Main results

* `Condition.evaluate_of_unlearned` — an undecided finding stays as it is until a
  fact that it awaits is recorded.
* `unknownFacts_block` — the facts listed for an undecided condition are those
  without which it cannot be settled.
-/

namespace Consult

/-! ## Comparisons -/

/-- What is missing for a comparison is missing until it is recorded. -/
theorem Comparison.Found.of_unlearned {c : Comparison} {facts facts' : Facts}
    {fact : String} (h : facts'.Extends facts) (hfound : c.Found facts (.missing fact))
    (hnone : facts'.get? fact = none) : c.Found facts' (.missing fact) := by
  generalize hf : Finding.missing fact = f at hfound ⊢
  cases hfound with
  | name hname =>
      cases hf
      exact .name (h.resolve_unknown hname hnone)
  | fact hname _ =>
      cases hf
      exact .fact (h.resolve_literal hname) hnone
  | @value name _ record hname hget hvalue =>
      cases hf
      obtain ⟨record', hget', hsame⟩ := h name record hget
      rw [← hsame] at hvalue
      exact .value (h.resolve_literal hname) hget' (h.resolve_unknown hvalue hnone)
  | @expected name _ _ record hname hget hvalue hexpected =>
      cases hf
      obtain ⟨record', hget', hsame⟩ := h name record hget
      rw [← hsame] at hvalue
      exact .expected (h.resolve_literal hname) hget' (h.resolve_literal hvalue)
        (h.resolve_unknown hexpected hnone)
  | settled _ _ _ _ => simp [Finding.missing] at hf

/-! ## Groups -/

namespace Finding

/-- Two findings with the same verdict, which are the same if it is "maybe". -/
def Alike (f f' : Finding) : Prop :=
  f'.verdict = f.verdict ∧ (f.verdict = .maybe → f' = f)

/-- An undecided group does not tell its members from others that are alike. -/
theorem ofGroup_eq_of_alike {k : Nat} {parts parts' : List Finding}
    (hmaybe : (ofGroup k parts).verdict = .maybe)
    (h : List.Forall₂ Alike parts parts') :
    ofGroup k parts' = ofGroup k parts := by
  have hverdicts : parts'.map verdict = parts.map verdict := by
    clear hmaybe
    induction h with
    | nil => rfl
    | cons halike _ ih => rw [List.map_cons, List.map_cons, halike.1, ih]
  have hopen : parts'.filter (·.verdict = .maybe) =
      parts.filter (·.verdict = .maybe) := by
    clear hmaybe hverdicts
    induction h with
    | nil => rfl
    | @cons f f' _ _ halike _ ih =>
        rw [List.filter_cons, List.filter_cons, halike.1, ih]
        by_cases hf : f.verdict = .maybe
        · rw [halike.2 hf]
        · simp [hf]
  have hmaybe' : (ofGroup k parts').verdict = .maybe := by
    rw [verdict_ofGroup, hverdicts]
    exact hmaybe
  rw [ofGroup_of_maybe hmaybe', ofGroup_of_maybe hmaybe, hopen]

end Finding

/-! ## Conditions -/

namespace Condition

/-- As long as no fact that it awaits is recorded, an undecided condition is found
the same again, if it can still be evaluated. -/
theorem evaluate_of_unlearned {facts facts' : Facts} (h : facts'.Extends facts)
    (c : Condition) :
    ∀ {f f' : Finding}, c.evaluate facts = .ok f → f.verdict = .maybe →
      (∀ fact, f.Awaits fact → facts'.get? fact = none) → c.evaluate facts' = .ok f' →
      f' = f := by
  induction c using Condition.induction with
  | compare c =>
      intro f f' hf hmaybe hunlearned hf'
      have hfound := evaluate_compare_eq_ok_iff.1 hf
      obtain ⟨fact, rfl⟩ := hfound.eq_missing hmaybe
      have hnone := hunlearned fact (Finding.awaits_missing_iff.2 rfl)
      have hagain := evaluate_compare_eq_ok_iff.2 (hfound.of_unlearned h hnone)
      exact Except.ok.inj (hf'.symm.trans hagain)
  | negation c ih =>
      intro f f' hf hmaybe hunlearned hf'
      obtain ⟨part, hpart, rfl⟩ := evaluate_negation_eq_ok_iff.1 hf
      obtain ⟨part', hpart', rfl⟩ := evaluate_negation_eq_ok_iff.1 hf'
      have hopen := Finding.verdict_negate_eq_maybe_iff.1 hmaybe
      rw [ih hpart hopen (fun fact hawaits => ?_) hpart']
      exact hunlearned fact (Finding.awaits_negate_iff.2 ⟨hopen, hawaits⟩)
  | atLeast k cs ih =>
      intro f f' hf hmaybe hunlearned hf'
      obtain ⟨parts, hparts, rfl⟩ := evaluate_atLeast_eq_ok_iff.1 hf
      obtain ⟨parts', hparts', rfl⟩ := evaluate_atLeast_eq_ok_iff.1 hf'
      have hmembers : ∀ part ∈ parts, part.verdict = .maybe →
          ∀ fact, part.Awaits fact → facts'.get? fact = none := by
        intro part hmem hopen fact hawaits
        exact hunlearned fact ((Finding.awaits_ofGroup_iff hmaybe).2
          ⟨part, hmem, hopen, hawaits⟩)
      refine Finding.ofGroup_eq_of_alike hmaybe ?_
      clear hf hf' hmaybe hunlearned
      -- A settled member keeps its verdict; an undecided one is found the same again.
      induction hparts generalizing parts' with
      | nil =>
          cases hparts'
          exact .nil
      | @cons c part cs parts hpart _ ihtail =>
          cases hparts' with
          | @cons _ part' _ parts' hpart' hrest' =>
              refine .cons ⟨?_, fun hopen => ?_⟩ ?_
              · obtain ⟨g, hg, hfirms⟩ := c.evaluate_of_extends h hpart'
                obtain rfl : g = part := Except.ok.inj (hg.symm.trans hpart)
                rcases hfirms with hopen | hsame
                · rw [ih c List.mem_cons_self hpart hopen
                    (hmembers g List.mem_cons_self hopen) hpart']
                · exact hsame
              · exact ih c List.mem_cons_self hpart hopen
                  (hmembers part List.mem_cons_self hopen) hpart'
              · exact ihtail (fun d hd => ih d (List.mem_cons_of_mem _ hd))
                  parts' hrest'
                  fun other hother => hmembers other (List.mem_cons_of_mem _ hother)

end Condition

/-- An undecided condition lists facts that it waits for, none twice and none that is
recorded.  As long as none of them is recorded, it does not matter what else is: the
finding on the condition is the same, with the same grounds, unless a chain of
variables has become circular. -/
theorem unknownFacts_block (c : Condition) {facts : Facts} {f : Finding}
    (heval : c.evaluate facts = .ok f) (hmaybe : f.verdict = .maybe) :
    f.unknownFacts ≠ [] ∧ f.unknownFacts.Nodup ∧
      (∀ fact ∈ f.unknownFacts, facts.get? fact = none) ∧
      ∀ facts' : Facts, facts'.Extends facts →
        (∀ fact ∈ f.unknownFacts, facts'.get? fact = none) →
        c.evaluate facts' = .ok f ∨
          ∃ chain, c.evaluate facts' = .error (.circular chain) := by
  refine ⟨?_, f.nodup_unknownFacts, fun fact hmem => ?_,
    fun facts' hmore hunlearned => ?_⟩
  · obtain ⟨fact, hawaits⟩ := c.exists_awaits heval hmaybe
    exact List.ne_nil_of_mem (Finding.mem_unknownFacts.2 hawaits)
  · exact c.get?_of_awaits heval (Finding.mem_unknownFacts.1 hmem)
  · cases heval' : c.evaluate facts' with
    | ok f' =>
        left
        have hsame := c.evaluate_of_unlearned hmore heval hmaybe
          (fun fact hawaits => hunlearned fact (Finding.mem_unknownFacts.2 hawaits))
            heval'
        rw [hsame]
    | error fault =>
        right
        obtain ⟨chain, rfl⟩ := c.circular_of_evaluate heval'
        exact ⟨chain, rfl⟩

/-- The cellar is safe if two of these are true: it is wet, or the place to be is the
cellar; the lamp is not in the mode wanted; the door is open. -/
def cellarCondition : Condition :=
  .atLeast 2 [.any [.equals "wet" "yes", .equals "$place" "cellar"],
    .negation (.equals "lamp" "$mode"), .equals "door" "open"]

/-- It is wet and the lamp is on. -/
def cellarFacts : Facts :=
  (KeyMap.empty.insert "wet" ⟨"yes", .given "Seen"⟩).insert "lamp" ⟨"on", .given "Seen"⟩

/-- The same, and the place to be is known. -/
def cellarFactsAt (place : String) : Facts :=
  cellarFacts.insert "place" ⟨place, .given "Heard"⟩

/-- The cellar waits for the mode and the door, but for no place. -/
def cellarFinding : Finding :=
  .because .maybe [.finding (Finding.missing "mode").negate, .finding (.missing "door")]

theorem extends_cellarFactsAt (place : String) :
    (cellarFactsAt place).Extends cellarFacts :=
  Facts.extends_insert _ rfl

theorem ne_place_of_mem_cellarFinding {fact : String}
    (h : fact ∈ cellarFinding.unknownFacts) :
    fact ≠ "place" := by
  have hawaits := Finding.mem_unknownFacts.1 h
  simp only [cellarFinding, Finding.awaits_because_iff, List.mem_cons, List.not_mem_nil,
    or_false, exists_eq_or_imp, exists_eq_left, Ground.Awaits,
    Finding.awaits_negate_iff, Finding.awaits_missing_iff] at hawaits
  rcases hawaits with ⟨-, -, rfl⟩ | ⟨-, rfl⟩ <;> decide

/-- The finding on the cellar is the same wherever the place to be is, unless this is
where it is. -/
theorem cellar_blocked :
    cellarCondition.evaluate cellarFacts = .ok cellarFinding ∧
      cellarFinding.verdict = .maybe ∧
      cellarFinding.unknownFacts ≠ [] ∧ cellarFinding.unknownFacts.Nodup ∧
      (∀ fact ∈ cellarFinding.unknownFacts, cellarFacts.get? fact = none) ∧
      cellarCondition.evaluate (cellarFactsAt "garden") = .ok cellarFinding ∧
      ∃ chain, cellarCondition.evaluate (cellarFactsAt "$place") =
        .error (.circular chain) := by
  have heval : cellarCondition.evaluate cellarFacts = .ok cellarFinding := rfl
  obtain ⟨hne, hnodup, hnone, hsame⟩ := unknownFacts_block cellarCondition heval rfl
  have hunlearned (place : String) :
      ∀ fact ∈ cellarFinding.unknownFacts, (cellarFactsAt place).get? fact = none := by
    intro fact hmem
    have hother := ne_place_of_mem_cellarFinding hmem
    exact (KeyMap.get?_insert_of_ne _ _ hother).trans (hnone fact hmem)
  have hgarden := hsame _ (extends_cellarFactsAt "garden") (hunlearned "garden")
  have hcircle := hsame _ (extends_cellarFactsAt "$place") (hunlearned "$place")
  have hcircular : cellarCondition.evaluate (cellarFactsAt "$place") ≠
      .ok cellarFinding := nofun
  refine ⟨heval, rfl, hne, hnodup, hnone, hgarden.resolve_right ?_,
    hcircle.resolve_left hcircular⟩
  rintro ⟨chain, hfails⟩
  cases hfails

end Consult
