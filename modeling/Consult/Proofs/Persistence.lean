import Consult.Proofs.Course
import Consult.Proofs.Evaluation

/-!
# Verdicts persist

Facts are only ever added.  A condition that has been found to hold, or not to
hold, is found so whenever it can be evaluated again, and one that cannot be
evaluated never can.  This is why forward chaining may forget a rule that it has
ruled out.

## Main results

* `Condition.Finds.of_extends` — what is found is found again, or not evaluated.
* `verdict_persists` — settled verdicts and faults outlast new facts, in
  particular all that a consultation adds.
-/

namespace Consult

/-- A condition that cannot be evaluated cannot be evaluated when facts are added. -/
theorem Condition.evaluate_error_of_extends {facts facts' : Facts}
    (h : facts'.Extends facts) (c : Condition) {fault : Fault}
    (hfault : c.evaluate facts = .error fault) :
    ∃ fault', c.evaluate facts' = .error fault' := by
  cases heval : c.evaluate facts' with
  | error fault' => exact ⟨fault', rfl⟩
  | ok f' =>
      obtain ⟨f, hf, -⟩ := c.evaluate_of_extends h heval
      simp [hfault] at hf

/-- A verdict other than "maybe" is found again when facts are added, if any is. -/
theorem Condition.verdict_of_extends {facts facts' : Facts} (h : facts'.Extends facts)
    (c : Condition) {f f' : Finding} (hf : c.evaluate facts = .ok f)
    (hsettled : f.verdict ≠ .maybe) (hf' : c.evaluate facts' = .ok f') :
    f'.verdict = f.verdict := by
  obtain ⟨g, hg, hfirms⟩ := c.evaluate_of_extends h hf'
  obtain rfl : g = f := Except.ok.inj (hg.symm.trans hf)
  exact hfirms.resolve_left hsettled

/-- What a condition is found to be it is still found to be when facts are added,
unless a chain of variables has become circular. -/
theorem Condition.Finds.of_extends {facts facts' : Facts} (h : facts'.Extends facts)
    {c : Condition} {v : Verdict} (hfinds : c.Finds facts v) (hsettled : v ≠ .maybe) :
    c.Finds facts' v ∨ ∃ chain, c.evaluate facts' = .error (.circular chain) := by
  obtain ⟨f, hf, rfl⟩ := hfinds
  cases hf' : c.evaluate facts' with
  | ok f' => exact .inl ⟨f', hf', c.verdict_of_extends h hf hsettled hf'⟩
  | error fault =>
      obtain ⟨chain, rfl⟩ := c.circular_of_evaluate hf'
      exact .inr ⟨chain, rfl⟩

/-- Whatever the reasons of the facts: settled verdicts and faults outlast new
facts.  In particular a rule that does not hold at one moment of a consultation
does not hold at any later one. -/
theorem verdict_persists :
    (∀ (c : Condition) (facts facts' : Facts), facts'.Extends facts →
      (∀ f f', c.evaluate facts = .ok f → f.verdict ≠ .maybe →
        c.evaluate facts' = .ok f' → f'.verdict = f.verdict) ∧
      ∀ fault, c.evaluate facts = .error fault →
        ∃ fault', c.evaluate facts' = .error fault') ∧
    ∀ (e : Engine) (s s' : Consultation), e.Course s s' →
      ∀ (rule : Rule) (f f' : Finding),
      rule.condition.evaluate s.facts = .ok f → f.verdict = .no →
      rule.condition.evaluate s'.facts = .ok f' → f'.verdict = .no := by
  constructor
  · intro c facts facts' h
    constructor
    · intro f f' hf hsettled hf'
      exact c.verdict_of_extends h hf hsettled hf'
    · intro fault hfault
      exact c.evaluate_error_of_extends h hfault
  · intro e s s' hcourse rule f f' hf hno hf'
    have hsettled : f.verdict ≠ .maybe := by
      rw [hno]
      decide
    rw [← hno]
    exact rule.condition.verdict_of_extends hcourse.keeps.extends hf hsettled hf'

/-- A rule that needs two facts, one of which stands against it from the start
while the other is a goal; a third fact has itself as its value. -/
def hopelessEngine : Engine where
  knowledge :=
    { rules := [{ condition := .all [.equals "dry" "yes", .equals "warm" "yes"]
                  consequences := KeyMap.empty.insert "picnic" "yes" }]
      goals := [{ name := "warm" }]
      facts := (KeyMap.empty.insert "dry" "no").insert "loop" "$loop" }
  checked := by rfl

/-- When the goal comes in, the rule stays ruled out, what held holds, and the
circular fact stays circular. -/
theorem hopeless_rule_persists :
    ∃ s', hopelessEngine.Course hopelessEngine.start s' ∧
      s'.facts.AssumedUndefined "warm" ∧
      (∀ rule ∈ hopelessEngine.knowledge.rules, ∃ f',
        rule.condition.evaluate s'.facts = .ok f' ∧ f'.verdict = .no) ∧
      (∃ f', (Condition.equals "dry" "no").evaluate s'.facts = .ok f' ∧
        f'.verdict = .yes) ∧
      ∃ fault', (Condition.equals "loop" "yes").evaluate s'.facts = .error fault' := by
  have hagenda : hopelessEngine.start.agenda = ["warm"] := by cbv
  have hcourse : hopelessEngine.Course hopelessEngine.start
      (turn hopelessEngine.knowledge hopelessEngine.limits "warm"
          hopelessEngine.start).state :=
    .single (.turn rfl hagenda)
  have hmore := verdict_persists.1
  refine ⟨_, hcourse, by decide, ?_, ?_, ?_⟩
  · intro rule hrule
    obtain rfl := List.mem_singleton.1 hrule
    refine ⟨.because .no [.finding
      (.because .no [.cause (.given "Defined in the knowledge base")]),
      .finding (.because .no [.cause (Facts.undefinedRecord "warm").reason])], rfl, ?_⟩
    refine verdict_persists.2 hopelessEngine _ _ hcourse
      { condition := .all [.equals "dry" "yes", .equals "warm" "yes"]
        consequences := KeyMap.empty.insert "picnic" "yes" }
      (.because .no [.finding
        (.because .no [.cause (.given "Defined in the knowledge base")]),
        .finding (.missing "warm")]) _ rfl rfl rfl
  · have hsame := (hmore (.equals "dry" "no") _ _ hcourse.keeps.extends).1
      (.because .yes [.cause (.given "Defined in the knowledge base")]) _ rfl
        (by decide) rfl
    exact ⟨_, rfl, hsame⟩
  · exact (hmore (.equals "loop" "yes") _ _ hcourse.keeps.extends).2
      (.circular ["$loop", "$loop"]) rfl

end Consult
