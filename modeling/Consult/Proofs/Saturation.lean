import Consult.Proofs.Continuation
import Consult.Proofs.Persistence

/-!
# Forward chaining saturates

When forward chaining says that all is decided, nothing more can be had from the
rules and the questions.  The rules that are left are undecided, and no question
that is left settles a fact that one of them waits for.  The others have been
ruled out or have fired at some moment of the consultation.  `Spent` says so of
a rule and looks back at that moment; `Done` is what can still be seen of it in
the end.

## Main results

* `Sweeps.spends` — the rules that sweeps take out are spent.
* `Rule.Spent.done` — a rule that is spent need not be considered any more.
* `forward_saturates` — the facts are saturated in the end, and the end is reached
  in one sweep more than there are rules.
-/

namespace Consult

/-! ## Rules that are spent -/

/-- The rule was ruled out, or it held and fired, when nothing was recorded that
is not recorded among these facts. -/
inductive Rule.Spent (rule : Rule) (facts : Facts) : Prop where
  | ruledOut {before : Facts} (hmore : facts.Extends before)
      (hno : rule.condition.Finds before .no)
  | fired {before : Facts} (hmore : facts.Extends before)
      (hyes : rule.condition.Finds before .yes)
      (hrecorded : ∀ fact, rule.infers fact = true →
        ∃ record, facts.get? fact = some record)

/-- Why a rule need not be considered any more. -/
inductive Rule.Done (rule : Rule) (facts : Facts) : Prop where
  | ruledOut (hno : rule.condition.Finds facts .no)
  | fired (hyes : rule.condition.Finds facts .yes)
      (hrecorded : ∀ fact, rule.infers fact = true →
        ∃ record, facts.get? fact = some record)
  | circular {chain : List String}
      (heval : rule.condition.evaluate facts = .error (.circular chain))

namespace Rule.Spent

variable {rule : Rule} {facts facts' : Facts}

theorem of_extends (h : rule.Spent facts) (hmore : facts'.Extends facts) :
    rule.Spent facts' := by
  cases h with
  | ruledOut hbefore hno => exact .ruledOut (hmore.trans hbefore) hno
  | fired hbefore hyes hrecorded =>
      refine .fired (hmore.trans hbefore) hyes fun fact hinfers => ?_
      obtain ⟨record, hget⟩ := hrecorded fact hinfers
      obtain ⟨record', hget', -⟩ := hmore fact record hget
      exact ⟨record', hget'⟩

/-- A rule that is spent need not be considered any more. -/
theorem done (h : rule.Spent facts) : rule.Done facts := by
  cases h with
  | ruledOut hmore hno =>
      rcases hno.of_extends hmore (by decide) with hno' | ⟨chain, heval⟩
      · exact .ruledOut hno'
      · exact .circular heval
  | fired hmore hyes hrecorded =>
      rcases hyes.of_extends hmore (by decide) with hyes' | ⟨chain, heval⟩
      · exact .fired hyes' hrecorded
      · exact .circular heval

end Rule.Spent

/-! ## What sweeps leave -/

namespace Sweeps

variable {limits : Limits} {rounds : Nat} {s s' : Consultation}
    {x : Except Fault Outcome}

/-- The rules that sweeps take out are spent. -/
theorem spends (h : Sweeps limits rounds s x s') :
    ∃ gone, Remains s.rules gone s'.rules ∧ ∀ rule ∈ gone, rule.Spent s'.facts := by
  have hruledOut {facts : Facts} {gone : List Rule}
      (hgone : ∀ other ∈ gone, other.condition.Finds facts .no) :
      ∀ other ∈ gone, other.Spent facts :=
    fun other hother => .ruledOut (.refl facts) (hgone other hother)
  induction h with
  | limit s => exact ⟨[], .refl _, by simp⟩
  | circular hleft hgone _ _ => exact ⟨_, hleft, hruledOut hgone⟩
  | decided hleft hgone _ => exact ⟨_, hleft, hruledOut hgone⟩
  | asked hleft hgone _ _ => exact ⟨_, hleft, hruledOut hgone⟩
  | @fired _ s s' rule finding gone left x hleft hgone heval hyes hrest ih =>
      obtain ⟨gone', hleft', hgone'⟩ := ih
      have hfired :
          (Consultation.applyRule { s with rules := left } rule finding).1.facts.Keeps
          s.facts := Consultation.keeps_apply _ _ _
      have hlater := hrest.continues.keeps
      refine ⟨_, hleft.trans hleft', fun other hother => ?_⟩
      rcases List.mem_append.1 hother with hother | hother
      · rcases List.mem_append.1 hother with hother | hother
        · exact (hruledOut hgone other hother).of_extends (hlater.trans hfired).extends
        · obtain rfl := List.mem_singleton.1 hother
          have hspent : other.Spent
              (Consultation.applyRule { s with rules := left } other finding).1.facts :=
            .fired hfired.extends ⟨finding, heval, hyes⟩ fun _ hinfers =>
              Consultation.exists_get?_applyRule _ finding hinfers
          exact hspent.of_extends hlater.extends
      · exact hgone' other hother

/-- When all is decided, the rules that are left are undecided, and no question
settles what they wait for. -/
theorem blocked (h : Sweeps limits rounds s x s') (hdecided : x = .ok .decided) :
    ∀ rule ∈ s'.rules, rule.Blocked s'.facts s'.questions := by
  induction h with
  | limit s => cases hdecided
  | circular _ _ _ _ => cases hdecided
  | decided _ _ hblocked => exact hblocked
  | asked _ _ _ _ => cases hdecided
  | fired _ _ _ _ _ ih => exact ih hdecided

end Sweeps

/-! ## Consultations -/

/-- Nothing more can be had from the rules of the knowledge base. -/
structure Consultation.Saturated (kb : KnowledgeBase) (s : Consultation) : Prop where
  /-- The rules that are left are undecided, and no question settles what they wait
  for. -/
  blocked : ∀ rule ∈ s.rules, rule.Blocked s.facts s.questions
  /-- All other rules are done with. -/
  done : ∃ gone, (gone ++ s.rules).Perm kb.rules ∧ ∀ rule ∈ gone, rule.Done s.facts

theorem Engine.rules_answer (pending : Pending) (index : Nat) (s : Consultation) :
    (Engine.answer pending index s).state.rules = s.rules := by
  unfold Engine.answer
  split <;> rfl

namespace KnowledgeBase

open Engine (Progress answer_continues rules_answer)

variable {kb : KnowledgeBase} {limits : Limits}

theorem step_sweeps (hforth : kb.strategy = .forward) (limits : Limits)
    (s : Consultation) : (kb.step limits s).Post (Sweeps limits limits.maxSteps s) := by
  rw [step_eq_forward hforth]
  exact forwardFor_cases limits _ s

/-- When forward chaining is used, the rules that are not left are spent. -/
theorem Reachable.spends (hforth : kb.strategy = .forward) {p : Progress}
    (h : kb.Reachable limits p) :
    ∃ gone, Remains kb.rules gone p.state.rules ∧
      ∀ rule ∈ gone, rule.Spent p.state.facts := by
  induction h with
  | refl => exact ⟨[], .refl _, by simp⟩
  | @tail p p' _ hadvance ih =>
      obtain ⟨gone, hleft, hgone⟩ := ih
      cases hadvance with
      | step =>
          obtain ⟨gone', hleft', hgone'⟩ := (step_sweeps hforth limits p.state).spends
          have hkeeps := (kb.step_continues limits p.state).keeps
          refine ⟨_, hleft.trans hleft', fun rule hrule => ?_⟩
          rcases List.mem_append.1 hrule with hrule | hrule
          · exact (hgone rule hrule).of_extends hkeeps.extends
          · exact hgone' rule hrule
      | @answer pending _ index =>
          have hkeeps := (answer_continues pending index p.state).keeps
          refine ⟨gone, ?_, fun rule hrule =>
            (hgone rule hrule).of_extends hkeeps.extends⟩
          rw [rules_answer]
          exact hleft
      | skip _ => exact ⟨gone, hleft, hgone⟩

end KnowledgeBase

/-- Forward chaining ends with saturated facts, whatever has been answered or
skipped in between.  One sweep more than there are rules always suffices. -/
theorem forward_saturates :
    (∀ e : Engine, e.knowledge.strategy = .forward → ∀ p, e.Reachable p →
      (e.step p.state).result = .ok .decided →
      (e.step p.state).state.Saturated e.knowledge) ∧
    ∀ (limits : Limits) (s : Consultation), s.rules.length + 1 ≤ limits.maxSteps →
      ∀ limit, (forward limits s).result ≠ .error (.stepLimit limit) := by
  constructor
  · intro e hforth p hreach hdecided
    have hsweeps : Sweeps e.limits e.limits.maxSteps p.state (e.step p.state).result
        (e.step p.state).state := KnowledgeBase.step_sweeps hforth e.limits p.state
    obtain ⟨gone, hleft, hgone⟩ := KnowledgeBase.Reachable.spends hforth
      (hreach.tail (.step p))
    exact ⟨hsweeps.blocked hdecided, gone, hleft.perm,
      fun rule hrule => (hgone rule hrule).done⟩
  · intro limits s hlimit limit hresult
    have hsweeps : Sweeps limits limits.maxSteps s (forward limits s).result
        (forward limits s).state := forwardFor_cases limits limits.maxSteps s
    have hrounds := hsweeps.length_lt hresult
    omega

/-- In the rain the outing ends with what the weather entails, and only the rule on
the wind is left.  Three rules take no more than four sweeps. -/
theorem outing_saturated :
    (outingEngine.step outingInRain.state).state.Saturated outingEngine.knowledge ∧
      (outingEngine.step outingInRain.state).state.rules.map (·.condition) =
        [.equals "wind" "strong"] ∧
      (outingEngine.step outingInRain.state).state.facts.lookup "umbrella" =
        .ok (some "yes") ∧
      (forward { maxSteps := 4 } outingEngine.start).result ≠
        .error (.stepLimit 4) := by
  have hdecided : (outingEngine.step outingInRain.state).result = .ok .decided := rfl
  refine ⟨?_, rfl, rfl, ?_⟩
  · exact forward_saturates.1 outingEngine rfl outingInRain
      reachable_outingInRain hdecided
  · exact forward_saturates.2 { maxSteps := 4 } outingEngine.start (Nat.le_refl 4) 4

end Consult
