import Consult.Proofs.Naming
import Consult.Proofs.Rounds
import Mathlib.Data.Finset.Card
import Mathlib.Data.List.Dedup

/-!
# Backward chaining makes progress

What is pursued is named by a text of the knowledge base, a recorded value or the
agenda, as long as no variable is pursued.  So there are finitely many names to pursue,
and each is pursued once.

A text with two dollar signs waits for a fact whose name is a variable.  This has no
record of its own, so that it can be pursued over and over, and then only the limit ends
the rounds.

## Main results

* `DrawsOn.wants` — what the goal in front waits for is mentioned.
* `Rounds.mentioned` — what is pursued is mentioned when the rounds begin.
* `backward_progresses` — how long backward chaining goes on.
* `Circling.stepLimit` — a consultation that would go on for ever.
-/

namespace Consult

/-! ## Names that are mentioned -/

/-- The texts that a call of backward chaining may come across. -/
def Consultation.mentions (kb : KnowledgeBase) (s : Consultation) : List String :=
  s.agenda ++ s.facts.entries.map (·.2.value) ++
    kb.rules.flatMap fun rule =>
      rule.condition.leaves.flatMap (fun leaf => [leaf.name, leaf.value]) ++
      rule.consequences.entries.map (·.2)

/-- The names that are mentioned, by themselves or by a variable. -/
def Consultation.names (kb : KnowledgeBase) (s : Consultation) : Finset String :=
  (s.mentions kb ++ (s.mentions kb).filterMap target?).toFinset

/-- As many rounds as there may be, if every name that is mentioned is pursued once. -/
def Consultation.roundBound (kb : KnowledgeBase) (s : Consultation) : Nat :=
  s.agenda.length + 2 * (s.names kb).card + 1

/-- The name is the one that a text refers to, or a text that is no variable. -/
def Mentioned (texts : List String) (name : String) : Prop :=
  (∃ text ∈ texts, target? text = some name) ∨ name ∈ texts ∧ isVariable name = false

/-- A name that is mentioned is no variable, if the texts refer plainly. -/
theorem Mentioned.not_isVariable {texts : List String} {name : String}
    (h : Mentioned texts name) (htexts : ∀ text ∈ texts, RefersPlainly text) :
    isVariable name = false := by
  rcases h with ⟨text, htext, ht⟩ | ⟨-, hplain⟩
  · exact htexts text htext name ht
  · exact hplain

theorem Mentioned.mem_names {kb : KnowledgeBase} {s : Consultation} {name : String}
    (h : Mentioned (s.mentions kb) name) : name ∈ s.names kb := by
  rw [Consultation.names, List.mem_toFinset, List.mem_append, List.mem_filterMap]
  rcases h with ⟨text, htext, ht⟩ | ⟨hmem, -⟩
  · exact .inr ⟨text, htext, ht⟩
  · exact .inl hmem

/-- A consultation draws on these texts: what its rules say, its values and what is
pursued are among them, but for names of facts on the agenda and the value
`undefined`, whose fact is recorded. -/
structure DrawsOn (kb : KnowledgeBase) (texts : List String) (s : Consultation) :
    Prop where
  conditions : ∀ rule ∈ kb.rules, ∀ leaf ∈ rule.condition.leaves,
    leaf.name ∈ texts ∧ leaf.value ∈ texts
  consequences : ∀ rule ∈ kb.rules, ∀ e ∈ rule.consequences.entries, e.2 ∈ texts
  undefined : ∃ record, s.facts.get? undefinedValue = some record
  values : ∀ fact record, s.facts.get? fact = some record →
    record.value ∈ texts ∨ record.value = undefinedValue
  agenda : ∀ name ∈ s.agenda, name ∈ texts ∨ isVariable name = false

theorem drawsOn_mentions (kb : KnowledgeBase) {s : Consultation}
    (h : ∃ record, s.facts.get? undefinedValue = some record) :
    DrawsOn kb (s.mentions kb) s where
  conditions rule hrule leaf hleaf := by
    have hmem (text : String) (htext : text ∈ [leaf.name, leaf.value]) :
        text ∈ s.mentions kb :=
      List.mem_append_right _ (List.mem_flatMap.2 ⟨rule, hrule,
        List.mem_append_left _ (List.mem_flatMap.2 ⟨leaf, hleaf, htext⟩)⟩)
    exact ⟨hmem _ (by simp), hmem _ (by simp)⟩
  consequences rule hrule e he := List.mem_append_right _ (List.mem_flatMap.2
    ⟨rule, hrule, List.mem_append_right _ (List.mem_map_of_mem (f := fun e => e.2) he)⟩)
  undefined := h
  values fact record hget := .inl (List.mem_append_left _ (List.mem_append_right _
    (List.mem_map_of_mem (f := fun e => e.2.value) (KeyMap.mem_entries_iff.2 hget))))
  agenda name hname := .inl (List.mem_append_left _ (List.mem_append_left _ hname))

namespace DrawsOn

variable {kb : KnowledgeBase} {texts : List String} {s s' : Consultation}
    {goal fact : String}

/-- What such a text waits for is mentioned. -/
theorem of_resolve_unknown (h : DrawsOn kb texts s) {text : String}
    (htext : text ∈ texts ∨ isVariable text = false)
    (hr : s.facts.resolve text = .ok (.unknown fact)) : Mentioned texts fact := by
  obtain ⟨through, hlead⟩ := Facts.resolve_eq_ok_iff.1 hr
  generalize hend : Resolution.unknown fact = r at hlead
  induction hlead with
  | literal _ => cases hend
  | unknown ht _ =>
      cases hend
      rcases htext with htext | hplain
      · exact .inl ⟨_, htext, ht⟩
      · rw [target?_eq_none hplain] at ht
        cases ht
  | link _ hget hrest ih =>
      subst hend
      refine ih ?_ (Facts.resolve_eq_ok_iff.2 ⟨_, hrest⟩) rfl
      rcases h.values _ _ hget with hvalue | hvalue
      · exact .inl hvalue
      · exact .inr (hvalue ▸ Facts.isVariable_undefinedValue)

/-- Where such a text leads is such a text, too. -/
theorem of_resolve_literal (h : DrawsOn kb texts s) {text literal : String}
    (htext : text ∈ texts ∨ text = undefinedValue)
    (hr : s.facts.resolve text = .ok (.literal literal)) :
    literal ∈ texts ∨ literal = undefinedValue := by
  obtain ⟨through, hlead⟩ := Facts.resolve_eq_ok_iff.1 hr
  generalize hend : Resolution.literal literal = r at hlead
  induction hlead with
  | literal _ =>
      cases hend
      exact htext
  | unknown _ _ => cases hend
  | link _ hget hrest ih =>
      subst hend
      exact ih (h.values _ _ hget) (Facts.resolve_eq_ok_iff.2 ⟨_, hrest⟩) rfl

/-- The value of a fact leads to names that are mentioned. -/
theorem of_value (h : DrawsOn kb texts s) {name : String} {record : Record}
    (hget : s.facts.get? name = some record)
    (hr : s.facts.resolve record.value = .ok (.unknown fact)) : Mentioned texts fact :=
  h.of_resolve_unknown ((h.values _ _ hget).imp_right fun hvalue =>
    hvalue ▸ Facts.isVariable_undefinedValue) hr

/-- What the finding on a rule awaits is mentioned. -/
theorem of_awaits (h : DrawsOn kb texts s) {rule : Rule} (hrule : rule ∈ kb.rules)
    {f : Finding} (hf : rule.condition.evaluate s.facts = .ok f)
    (hawaits : f.Awaits fact) :
    Mentioned texts fact := by
  obtain ⟨leaf, hleaf, hmissing⟩ := rule.condition.exists_leaf_of_awaits hf hawaits
  obtain ⟨hname, hvalue⟩ := h.conditions rule hrule leaf hleaf
  have hfound := Comparison.evaluate_eq_ok_iff.1 hmissing
  generalize hm : Finding.missing fact = m at hfound
  cases hfound with
  | name hunknown =>
      cases hm
      exact h.of_resolve_unknown (.inl hname) hunknown
  | fact hliteral hnone =>
      cases hm
      rcases h.of_resolve_literal (.inl hname) hliteral with hmem | hundefined
      · exact .inr ⟨hmem, Facts.isVariable_of_resolve hliteral⟩
      · obtain ⟨record, hget⟩ := h.undefined
        rw [← hundefined, hnone] at hget
        cases hget
  | value _ hget hunknown =>
      cases hm
      exact h.of_value hget hunknown
  | expected _ _ _ hunknown =>
      cases hm
      exact h.of_resolve_unknown (.inl hvalue) hunknown
  | settled _ _ _ _ => simp [Finding.missing] at hm

/-- What rules record is among the texts. -/
theorem grows (h : DrawsOn kb texts s) (hgrows : kb.Grows s.facts s'.facts)
    (hagenda : ∀ name ∈ s'.agenda, name ∈ texts ∨ isVariable name = false) :
    DrawsOn kb texts s' where
  conditions := h.conditions
  consequences := h.consequences
  undefined := h.undefined.imp fun _ hget => hgrows.keeps _ _ hget
  values fact record hget := by
    rcases hgrows.values fact record hget with hold | ⟨rule, hrule, hvalue⟩ | hundefined
    · exact h.values fact record hold
    · exact .inl (h.consequences rule hrule _ (KeyMap.mem_entries_iff.2 hvalue))
    · exact .inr hundefined
  agenda := hagenda

theorem fired (h : DrawsOn kb texts s) (hfired : Fired kb s s') : DrawsOn kb texts s' :=
  h.grows hfired.grows fun name hname => h.agenda name (hfired.agenda ▸ hname)

/-- What the goal in front waits for is mentioned. -/
theorem wants (h : DrawsOn kb texts s) (hgoal : goal ∈ s.agenda)
    (hwants : Wants kb goal s s' fact) : Mentioned texts fact := by
  cases hwants with
  | target hunknown => exact h.of_resolve_unknown (h.agenda goal hgoal) hunknown
  | value hfired _ hget hunknown => exact (h.fired hfired).of_value hget hunknown
  | rule _ hfacts hmem hawaits =>
      obtain ⟨-, rule, hrule, heval⟩ := hfacts.undecided _ hmem
      exact h.of_awaits (List.mem_of_mem_filter hrule) heval hawaits

/-- A name of a fact may be pursued. -/
theorem push (h : DrawsOn kb texts s) (hplain : isVariable fact = false) :
    DrawsOn kb texts (s.push fact) :=
  h.grows (.refl kb s.facts) fun name hname => by
    rcases List.mem_cons.1 hname with rfl | hold
    · exact .inr hplain
    · exact h.agenda name hold

/-- The name in front may be taken off the agenda. -/
theorem pop (h : DrawsOn kb texts s) {rest : List String}
    (hfront : s.agenda = goal :: rest) (hagenda : s'.agenda = rest)
    (hgrows : kb.Grows s.facts s'.facts) : DrawsOn kb texts s' :=
  h.grows hgrows fun name hname => h.agenda name <| by
    rw [hfront]
    exact List.mem_cons_of_mem goal (hagenda ▸ hname)

end DrawsOn

namespace Rounds

variable {kb : KnowledgeBase} {limits : Limits} {rounds turns : Nat} {s : Consultation}
  {names texts : List String} {x : Except Fault Outcome}

/-- What is pursued is mentioned at first, if it is no variable. -/
theorem mentioned (h : Rounds kb limits rounds s names turns x)
    (hs : DrawsOn kb texts s) (hnames : ∀ name ∈ names, isVariable name = false) :
    ∀ name ∈ names, Mentioned texts name := by
  induction h with
  | done _ => simp
  | spent _ _ => simp
  | ends _ => simp
  | pushes hfront hwants _ _ _ ih =>
      obtain ⟨hplain, hnames⟩ := List.forall_mem_cons.1 hnames
      have hmentioned := hs.wants (hfront ▸ List.mem_cons_self) hwants
      exact List.forall_mem_cons.2
        ⟨hmentioned, ih ((hs.fired hwants.fired).push hplain) hnames⟩
  | pops hfront hagenda hgrows _ _ ih => exact ih (hs.pop hfront hagenda hgrows) hnames

/-- No variable is pursued, if all texts refer plainly. -/
theorem not_isVariable (h : Rounds kb limits rounds s names turns x)
    (hs : DrawsOn kb texts s) (htexts : ∀ text ∈ texts, RefersPlainly text) :
    ∀ name ∈ names, isVariable name = false := by
  induction h with
  | done _ => simp
  | spent _ _ => simp
  | ends _ => simp
  | pushes hfront hwants _ _ _ ih =>
      have hmentioned := hs.wants (hfront ▸ List.mem_cons_self) hwants
      have hplain := hmentioned.not_isVariable htexts
      exact List.forall_mem_cons.2 ⟨hplain, ih ((hs.fired hwants.fired).push hplain)⟩
  | pops hfront hagenda hgrows _ _ ih => exact ih (hs.pop hfront hagenda hgrows)

end Rounds

/-! ## Progress -/

/-- The value `undefined` is that of a fact in every consultation. -/
theorem KnowledgeBase.Reachable.undefined_recorded {kb : KnowledgeBase}
    {limits : Limits} {p : Engine.Progress} (hreach : kb.Reachable limits p) :
    ∃ record, p.state.facts.get? undefinedValue = some record := by
  have hinitial : ∃ record, Facts.initial.get? undefinedValue = some record :=
    ⟨_, KeyMap.get?_insert_self _ _ _⟩
  refine hinitial.imp fun record hget => hreach.course.keeps undefinedValue record ?_
  exact Facts.get?_record Facts.initial _ _ hget

/-- **How long backward chaining goes on.** Wherever a caller has come, a call pushes
no name of a fact twice, and takes no more rounds than there are names to be taken off
the agenda, and to be put there first.  If it pushes no variable, the names pushed are
among those that are mentioned when the call begins, so that the limit is not hit if
it leaves room for them.  It pushes none if no text that is mentioned refers to one. -/
theorem backward_progresses (e : Engine) (limits : Limits) (p : Engine.Progress)
    (hreach : e.Reachable p) :
    let kb := e.knowledge
    let run := backward kb limits p.state
    let turns := backwardTurns kb limits limits.maxSteps p.state
    (run.pushed.filter (!isVariable ·)).Nodup ∧
      turns ≤ p.state.agenda.length + 2 * run.pushed.length + 1 ∧
      ((∀ name ∈ run.pushed, isVariable name = false) →
        run.pushed.Nodup ∧ (∀ name ∈ run.pushed, name ∈ p.state.names kb) ∧
          turns ≤ p.state.roundBound kb ∧
          (p.state.roundBound kb ≤ limits.maxSteps →
            ∀ limit, run.result ≠ .error (.stepLimit limit))) ∧
      ((∀ text ∈ p.state.mentions kb, RefersPlainly text) →
        ∀ name ∈ run.pushed, isVariable name = false) := by
  intro kb run turns
  have hrounds : Rounds kb limits limits.maxSteps p.state run.pushed turns run.result :=
    backwardFor_rounds kb limits limits.maxSteps p.state
  have hdraws : DrawsOn kb (p.state.mentions kb) p.state :=
    drawsOn_mentions kb hreach.undefined_recorded
  refine ⟨hrounds.nodup, hrounds.turns_le, fun hplain => ?_,
    hrounds.not_isVariable hdraws⟩
  have hnodup : run.pushed.Nodup := by
    have hall : run.pushed.filter (!isVariable ·) = run.pushed :=
      List.filter_eq_self.2 fun name hname => by rw [hplain name hname]; rfl
    exact hall ▸ hrounds.nodup
  have hnames : ∀ name ∈ run.pushed, name ∈ p.state.names kb := fun name hname =>
    (hrounds.mentioned hdraws hplain name hname).mem_names
  have hlength : run.pushed.length ≤ (p.state.names kb).card := by
    rw [← List.toFinset_card_of_nodup hnodup]
    exact Finset.card_le_card fun name hname => hnames name (List.mem_toFinset.1 hname)
  have hbound : p.state.agenda.length + 2 * run.pushed.length + 1 ≤
      p.state.roundBound kb := by
    unfold Consultation.roundBound
    omega
  refine ⟨hnodup, hnames, hrounds.turns_le.trans hbound, fun hroom limit hlimit => ?_⟩
  have hshort := hrounds.lt_of_stepLimit hlimit
  omega

/-! ### A sign that names a door -/

/-- What the sign names must be open, and the sign stands for whatever the door is. -/
def signEngine : Engine where
  knowledge :=
    { rules := [
        { condition := .equals "$sign" "open"
          consequences := KeyMap.empty.insert "enter" "yes" }]
      goals := [{ name := "enter" }]
      facts := KeyMap.empty.insert "sign" "$door" }
  limits := { maxSteps := 18 }
  checked := by rfl

/-- The door is pursued, once, and 18 rounds are enough. -/
theorem sign_progresses :
    signEngine.Reachable ⟨signEngine.start, []⟩ ∧
      (backward signEngine.knowledge signEngine.limits signEngine.start).pushed =
        ["door"] ∧
      signEngine.start.roundBound signEngine.knowledge = 18 ∧
      ∀ limit,
        (backward signEngine.knowledge signEngine.limits signEngine.start).result ≠
        .error (.stepLimit limit) := by
  have hstart : signEngine.Reachable ⟨signEngine.start, []⟩ := .refl
  have hplain : ∀ text ∈ signEngine.start.mentions signEngine.knowledge,
      RefersPlainly text := by
    decide +kernel
  have hbound : signEngine.start.roundBound signEngine.knowledge =
      18 := by decide +kernel
  obtain ⟨-, -, hprogress, hpushed⟩ :=
    backward_progresses signEngine signEngine.limits _ hstart
  have hlimit := (hprogress (hpushed hplain)).2.2.2 (Nat.le_of_eq hbound)
  exact ⟨hstart, by decide +kernel, hbound, hlimit⟩

/-! ### A variable that is pursued -/

/-- What the rule compares is the fact that the value of `$x` names,
as if `$x` were a fact. -/
def circlingEngine : Engine where
  knowledge :=
    { rules := [
        { condition := .equals "$$x" "y"
          consequences := KeyMap.empty.insert "g" "y" }]
      goals := [{ name := "g" }] }
  checked := by rfl

namespace Circling

/-- The goal waits for the variable. -/
def waiting : Consultation := circlingEngine.start.push "$x"

/-- The variable waits for its fact. -/
def pursuing : Consultation := waiting.push "x"

/-- The fact is given up, and the variable is in front again. -/
def givenUp : Consultation := (pursuing.pop.assumeUndefined "x").1

end Circling

/-- The consultations that come up.  Once the fact is given up, the goal and the
variable take turns at the front. -/
inductive Circling : Consultation → Prop where
  | begins : Circling circlingEngine.start
  | waits : Circling Circling.waiting
  | pursues : Circling Circling.pursuing
  | givesUp : Circling Circling.givenUp
  | again : Circling Circling.givenUp.pop

/-- A round leads from one of them to another. -/
theorem Circling.turn {s : Consultation} (h : Circling s) (maxSteps : Nat) :
    ∃ goal rest, s.agenda = goal :: rest ∧
      (turn circlingEngine.knowledge { maxSteps } goal s).result = .ok none ∧
      Circling (turn circlingEngine.knowledge { maxSteps } goal s).state := by
  -- A round does not depend on how many there may be, so that it may be tried with
  -- none.
  have leads {s s' : Consultation} {goal : String} {rest : List String}
      (hagenda : s.agenda = goal :: rest)
      (hturn : (Consult.turn circlingEngine.knowledge { maxSteps := 0 } goal s).result =
        .ok none ∧
        (Consult.turn circlingEngine.knowledge { maxSteps := 0 } goal s).state = s')
      (hs' : Circling s') :
      ∃ goal rest, s.agenda = goal :: rest ∧
        (Consult.turn circlingEngine.knowledge { maxSteps } goal s).result = .ok none ∧
        Circling (Consult.turn circlingEngine.knowledge { maxSteps } goal s).state :=
    ⟨goal, rest, hagenda, hturn.1, hturn.2 ▸ hs'⟩
  cases h with
  | begins => exact leads rfl (by decide +kernel) .waits
  | waits => exact leads rfl (by decide +kernel) .pursues
  | pursues => exact leads rfl (by decide +kernel) .givesUp
  | givesUp => exact leads rfl (by decide +kernel) .again
  | again => exact leads rfl (by decide +kernel) .givesUp

/-- Only the limit ends the rounds. -/
theorem Circling.stepLimit {s : Consultation} (h : Circling s) (maxSteps rounds : Nat) :
    (backwardFor circlingEngine.knowledge { maxSteps } rounds s).result =
      .error (.stepLimit maxSteps) := by
  induction rounds generalizing s with
  | zero =>
      obtain ⟨goal, rest, hagenda, -⟩ := h.turn maxSteps
      rw [backwardFor, hagenda]
      rfl
  | succ rounds ih =>
      obtain ⟨goal, rest, hagenda, hresult, hnext⟩ := h.turn maxSteps
      rw [backwardFor, hagenda]
      dsimp only
      rw [Run.andThen_of_ok hresult]
      exact ih hnext

/-- Where variables are pursued, a name may be pursued again and again, the rounds may
be more than names are mentioned, and no limit is high enough. -/
theorem not_always_progressing :
    (¬∀ (e : Engine) (limits : Limits) (p : Engine.Progress), e.Reachable p →
      (backward e.knowledge limits p.state).pushed.Nodup) ∧
    (¬∀ (e : Engine) (limits : Limits) (p : Engine.Progress), e.Reachable p →
      backwardTurns e.knowledge limits limits.maxSteps p.state ≤
        p.state.roundBound e.knowledge) ∧
    ¬∀ (e : Engine) (limits : Limits) (p : Engine.Progress), e.Reachable p →
      p.state.roundBound e.knowledge ≤ limits.maxSteps →
        (backward e.knowledge limits p.state).result ≠
          .error (.stepLimit limits.maxSteps) := by
  refine ⟨fun h => ?_, fun h => ?_, fun h => ?_⟩
  · have hnodup := h circlingEngine { maxSteps := 13 } ⟨circlingEngine.start, []⟩ .refl
    exact absurd hnodup (by decide +kernel)
  · have hturns := h circlingEngine { maxSteps := 13 } ⟨circlingEngine.start, []⟩ .refl
    exact absurd hturns (by decide +kernel)
  · refine h circlingEngine {} ⟨circlingEngine.start, []⟩ .refl ?_
      (Circling.begins.stepLimit _ _)
    decide +kernel

end Consult
