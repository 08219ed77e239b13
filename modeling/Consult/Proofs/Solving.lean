import Consult.Proofs.Sweep
import Consult.Proofs.Turn

/-!
# An attempt to settle a goal does one thing or nothing

To settle a goal, the rules for it are evaluated one after the other, and any of them
may turn out to be circular; a rule may fire that contradicts what is recorded; a
question may be taken out.  Whatever happens, the attempt has changed at most one
thing when it ends: either one rule has fired, the first for the goal that holds, or
one question has been taken out, the first for the goal.  All evaluation comes before
that, so an attempt that fails or comes to nothing has changed nothing.

## Main results

* `rulesInferring_split` — where the first rule for a fact that holds stands among all
  rules.
* `FirstToHold.unique` — there is one such rule at most.
* `settle_exit`, `solve_all_or_nothing` — what the attempt has
  changed, for each of its ends.
-/

namespace Consult

/-- The rule is for the fact and holds, while those for the fact that come before it
are ruled out or undecided. -/
structure FirstToHold (facts : Facts) (fact : String) (rules : List Rule) (rule : Rule)
    (finding : Finding) : Prop where
  infers : rule.infers fact = true
  evaluates : rule.condition.evaluate facts = .ok finding
  holds : finding.verdict = .yes
  first : ∃ earlier later, rules = earlier ++ rule :: later ∧
    ∀ other ∈ earlier, other.infers fact = true →
      other.condition.Finds facts .no ∨ other.condition.Finds facts .maybe

/-- What an attempt to settle a goal has changed when it ends in this way. -/
def Exit (kb : KnowledgeBase) (goal : String) (s : Consultation) :
    Except Fault Solution → Consultation → Prop
  | .error _, s' => s' = s
  | .ok (.unknown _), s' => s' = s
  | .ok (.ask pending), s' =>
    ∃ fact, s.facts.resolve goal = .ok (.literal fact) ∧
      ∃ before after, s.questions = before ++ pending.question :: after ∧
        pending.question.infers fact = true ∧
        (∀ other ∈ before, other.infers fact = false) ∧
        s' = { s with questions := before ++ after }
  | .ok (.known record), s' =>
    ∃ fact, s.facts.resolve goal = .ok (.literal fact) ∧
      (s.facts.get? fact = some record ∧ s' = s ∨
        s.facts.get? fact = none ∧ ∃ rule finding,
          FirstToHold s.facts fact kb.rules rule finding ∧
            s' = (s.applyRule rule finding).1 ∧ s'.facts.get? fact = some record)

namespace FirstToHold

variable {facts : Facts} {fact : String} {rules : List Rule} {rule rule' : Rule}
  {finding finding' : Finding}

/-- It is not among rules that are ruled out or undecided. -/
theorem notMem (h : FirstToHold facts fact rules rule finding) {others : List Rule}
    (hothers : ∀ other ∈ others, other.infers fact = true →
      other.condition.Finds facts .no ∨ other.condition.Finds facts .maybe) :
    rule ∉ others := by
  intro hmem
  rcases hothers rule hmem h.infers with hfinds | hfinds
  · exact nomatch h.holds.symm.trans ((Condition.finds_iff h.evaluates).1 hfinds)
  · exact nomatch h.holds.symm.trans ((Condition.finds_iff h.evaluates).1 hfinds)

/-- There is only one first rule. -/
theorem unique (h : FirstToHold facts fact rules rule finding)
    (h' : FirstToHold facts fact rules rule' finding') :
    rule = rule' ∧ finding = finding' := by
  obtain ⟨earlier, later, hrules, hearlier⟩ := h.first
  obtain ⟨earlier', later', hrules', hearlier'⟩ := h'.first
  have hsame : rule = rule' := by
    -- If one came before the other, it would be ruled out or undecided.
    rcases List.append_eq_append_iff.1 (hrules.symm.trans hrules') with
      ⟨between, rfl, hlater⟩ | ⟨between, rfl, hlater⟩
    · cases between with
      | nil => exact (List.cons.inj hlater).1
      | cons other between =>
          obtain ⟨rfl, -⟩ := List.cons.inj hlater
          exact absurd (List.mem_append_right earlier List.mem_cons_self)
            (h.notMem hearlier')
    · cases between with
      | nil => exact (List.cons.inj hlater).1.symm
      | cons other between =>
          obtain ⟨rfl, -⟩ := List.cons.inj hlater
          exact absurd (List.mem_append_right earlier' List.mem_cons_self)
            (h'.notMem hearlier)
  subst hsame
  exact ⟨rfl, Except.ok.inj (h.evaluates.symm.trans h'.evaluates)⟩

end FirstToHold

/-- Of the rules for a fact, one comes first if it does so among all rules. -/
theorem rulesInferring_split {kb : KnowledgeBase} {fact : String}
    {earlier later : List Rule} {rule : Rule}
    (h : kb.rulesInferring fact = earlier ++ rule :: later) :
    rule.infers fact = true ∧ ∃ before after, kb.rules = before ++ rule :: after ∧
      ∀ other ∈ before, other.infers fact = true → other ∈ earlier := by
  obtain ⟨before, rest, hrules, hearlier, hrest⟩ := List.filter_eq_append_iff.1 h
  obtain ⟨others, after, rfl, hothers, hinfers, -⟩ := List.filter_eq_cons_iff.1 hrest
  refine ⟨hinfers, before ++ others, after, by rw [hrules, List.append_assoc], ?_⟩
  intro other hother hfact
  rcases List.mem_append.1 hother with hother | hother
  · exact hearlier ▸ List.mem_filter.2 ⟨hother, hfact⟩
  · exact absurd hfact (hothers other hother)

/-- The rule with which a survey of the rules for a fact ends is the first to hold. -/
theorem firstToHold_of_survey {kb : KnowledgeBase} {facts : Facts} {fact : String}
    {rule : Rule} {finding : Finding}
    (h : (survey facts (kb.rulesInferring fact)).ending = .ok (some (rule, finding))) :
    FirstToHold facts fact kb.rules rule finding := by
  obtain ⟨earlier, later, hrules, heval, hyes, hearlier⟩ := survey_of_some h
  obtain ⟨hinfers, before, after, hsplit, hbefore⟩ := rulesInferring_split hrules
  exact ⟨hinfers, heval, hyes, before, after, hsplit,
    fun other hother hfact => hearlier other (hbefore other hother hfact)⟩

section

variable {kb : KnowledgeBase} {goal fact : String} {s : Consultation}

theorem askFor_exit (hgoal : s.facts.resolve goal = .ok (.literal fact)) :
    (askFor fact s).Post (Exit kb goal s) := by
  unfold askFor
  cases hfind : s.questions.find? (·.infers fact) with
  | none => exact rfl
  | some question =>
      obtain ⟨before, after, hquestions, hinfers, hbefore, herase⟩ :=
        eraseP_of_find? hfind
      refine ⟨fact, hgoal, before, after, hquestions, hinfers, hbefore, ?_⟩
      rw [← herase]
      rfl

/-- The rules are surveyed before anything is changed. -/
theorem settle_exit (hgoal : s.facts.resolve goal = .ok (.literal fact))
    (hnone : s.facts.get? fact = none) : (settle kb fact s).Post (Exit kb goal s) := by
  unfold settle
  dsimp only
  cases hending : (survey s.facts (kb.rulesInferring fact)).ending with
  | error fault => exact rfl
  | ok fires =>
      cases fires with
      | some fires =>
          obtain ⟨rule, finding⟩ := fires
          obtain ⟨record, hget⟩ := exists_get?_fire_of_survey hending
          simp only [hget]
          exact ⟨fact, hgoal, .inr
            ⟨hnone, rule, finding, firstToHold_of_survey hending, rfl, hget⟩⟩
      | none =>
          cases (survey s.facts (kb.rulesInferring fact)).undecided with
          | nil => exact askFor_exit hgoal
          | cons finding findings => exact rfl

theorem solve_exit : (solve kb goal s).Post (Exit kb goal s) := by
  refine Run.Post.andThen
    (Q := fun x s' => s.facts.resolve goal = x ∧ s' = s) ⟨rfl, rfl⟩
    (fun resolution s' h => ?_) (fun fault s' h => h.2)
  obtain ⟨hgoal, rfl⟩ := h
  cases resolution with
  | unknown fact => exact rfl
  | literal fact =>
      cases hget : s'.facts.get? fact with
      | none =>
          simp only [hget]
          exact settle_exit hgoal hget
      | some record =>
          simp only [hget]
          exact ⟨fact, hgoal, .inl ⟨hget, rfl⟩⟩

/-- However it ends, the agenda and the rules that are left stay as they are. -/
theorem Exit.keeps {x : Except Fault Solution} {s' : Consultation}
    (h : Exit kb goal s x s') :
    s'.agenda = s.agenda ∧ s'.rules = s.rules := by
  match x, h with
  | .error _, rfl => exact ⟨rfl, rfl⟩
  | .ok (.unknown _), rfl => exact ⟨rfl, rfl⟩
  | .ok (.ask _), ⟨_, _, _, _, _, _, _, rfl⟩ => exact ⟨rfl, rfl⟩
  | .ok (.known _), ⟨_, _, .inl ⟨_, rfl⟩⟩ => exact ⟨rfl, rfl⟩
  | .ok (.known _), ⟨_, _, .inr ⟨_, _, _, _, rfl, _⟩⟩ => exact ⟨rfl, rfl⟩

end

/-- An attempt to settle a goal changes one thing or nothing.  If it fails or comes to
nothing, all is as it was.  If it asks, the first question for the goal has been taken
out, and nothing else.  If the goal has a value, it had that before, or the first rule
for it that holds has fired. -/
theorem solve_all_or_nothing (kb : KnowledgeBase) (goal : String) (s : Consultation) :
    Exit kb goal s (solve kb goal s).result (solve kb goal s).state ∧
      (solve kb goal s).state.agenda = s.agenda ∧
        (solve kb goal s).state.rules = s.rules :=
  have hexit : Exit kb goal s (solve kb goal s).result (solve kb goal s).state :=
    solve_exit
  ⟨hexit, hexit.keeps⟩

/-- Whether anyone is at home. -/
def homeQuestion : Question where
  description := "Is anyone at home?"
  options :=
    [⟨"Yes", KeyMap.empty.insert "home" "yes"⟩, ⟨"No", KeyMap.empty.insert "home" "no"⟩]

/-- A lamp burns when there is current, and uses it up. -/
def glow : Rule where
  condition := .equals "current" "on"
  consequences := (KeyMap.empty.insert "current" "used").insert "lamp" "burns"

/-- A lamp is dark when it is switched off or there is no current. -/
def lampKnowledge : KnowledgeBase where
  rules := [
    { condition := .equals "switch" "off",
      consequences := KeyMap.empty.insert "lamp" "dark" },
    { condition := .equals "current" "on",
      consequences := KeyMap.empty.insert "noise" "hum" },
    { condition := .equals "current" "off",
      consequences := KeyMap.empty.insert "lamp" "dark" },
    glow,
    { condition := .equals "loop" "on",
      consequences := KeyMap.empty.insert "lamp" "flickers" }]
  questions := [homeQuestion]
  facts := (KeyMap.empty.insert "current" "on").insert "loop" "$loop"

/-- The lamp burns as the third of the rules for it says, though this contradicts what
is known of the current; the last rule for it, which is circular, is not reached.
Whether anyone is at home has to be asked; the loop leads nowhere, and what a missing
variable refers to cannot be found. -/
theorem lamp_settled :
    (∃ finding, FirstToHold lampKnowledge.start.facts "lamp" lampKnowledge.rules
      glow finding ∧
        (solve lampKnowledge "lamp" lampKnowledge.start).state =
          (lampKnowledge.start.applyRule glow finding).1) ∧
      (solve lampKnowledge "home" lampKnowledge.start).state =
        { lampKnowledge.start with questions := [] } ∧
      (solve lampKnowledge "$loop" lampKnowledge.start).state = lampKnowledge.start ∧
      (solve lampKnowledge "$bulb" lampKnowledge.start).state =
      lampKnowledge.start := by
  obtain ⟨hlamp, -⟩ := solve_all_or_nothing lampKnowledge "lamp" lampKnowledge.start
  obtain ⟨hhome, -⟩ := solve_all_or_nothing lampKnowledge "home" lampKnowledge.start
  obtain ⟨hloop, -⟩ := solve_all_or_nothing lampKnowledge "$loop" lampKnowledge.start
  obtain ⟨hbulb, -⟩ := solve_all_or_nothing lampKnowledge "$bulb" lampKnowledge.start
  refine ⟨?_, ?_, hloop, hbulb⟩
  · obtain ⟨fact, hgoal, hcases⟩ := hlamp
    obtain rfl : "lamp" = fact :=
      Resolution.literal.inj (Except.ok.inj (Eq.trans (by decide +kernel) hgoal))
    have hnone : lampKnowledge.start.facts.get? "lamp" = none := by decide +kernel
    rcases hcases with ⟨hget, -⟩ | ⟨-, rule, finding, hfirst, hstate, -⟩
    · exact nomatch hnone.symm.trans hget
    · obtain ⟨f, heval, hyes⟩ :
          glow.condition.Finds lampKnowledge.start.facts .yes := by
        decide +kernel
      have hglow : FirstToHold lampKnowledge.start.facts "lamp"
          lampKnowledge.rules glow f :=
        ⟨rfl, heval, hyes, lampKnowledge.rules.take 3, lampKnowledge.rules.drop 4, rfl,
          by decide +kernel⟩
      obtain ⟨rfl, rfl⟩ := hfirst.unique hglow
      exact ⟨finding, hfirst, hstate⟩
  · obtain ⟨fact, -, before, after, hquestions, -, -, hstate⟩ := hhome
    have hsplit : [homeQuestion] = before ++ _ :: after := hquestions
    rcases List.append_eq_singleton_iff.1 hsplit.symm with ⟨rfl, hlast⟩ | ⟨-, hrest⟩
    · obtain rfl := (List.cons.inj hlast).2
      exact hstate
    · exact nomatch hrest

end Consult
