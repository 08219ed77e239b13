import Consult.Chaining.Forward
import Consult.Proofs.Evaluation
import Consult.Proofs.Recording

/-!
# What sweeps of the rules do

A sweep takes rules out of those that are left: all that it rules out, and the
one that fires.  `Swept` lists how a sweep can end, and `Sweeps` what sweeps come
to when forward chaining makes one after the other, with the guards of each case
and the state that it leaves.  Results on what forward chaining comes to are
inductions on these; where the log counts too, they go by the equations of
`forwardFor`.

## Main results

* `sweep_cases` — a sweep ends in one of the cases of `Swept`.
* `sweep_again` — a sweep that fails fails again.
* `forwardFor_cases` — forward chaining comes to one of the cases of `Sweeps`.
* `Sweeps.length_lt` — one sweep more than there are rules suffices.
-/

namespace Consult

/-! ## What remains of a list -/

/-- The first item that has a property is the one that is taken out for it. -/
theorem eraseP_of_find? {α : Type} {items : List α} {p : α → Bool} {a : α}
    (h : items.find? p = some a) :
    ∃ before after, items = before ++ a :: after ∧ p a = true ∧
      (∀ other ∈ before, p other = false) ∧ items.eraseP p = before ++ after := by
  obtain ⟨hp, before, after, rfl, hbefore⟩ := List.find?_eq_some_iff_append.1 h
  refine ⟨before, after, rfl, hp, by simpa using hbefore, ?_⟩
  rw [List.eraseP_append_right _ (by simpa using hbefore), List.eraseP_cons_of_pos hp]

/-- `Remains items gone left`: when those in `gone` are taken out of the items,
`left` remains, in the same order. -/
structure Remains {α : Type} (items gone left : List α) : Prop where
  sublist : left.Sublist items
  perm : (gone ++ left).Perm items

namespace Remains

variable {α : Type} {items gone left : List α}

theorem refl (items : List α) : Remains items [] items := ⟨.refl _, .refl _⟩

theorem keep (h : Remains items gone left) (a : α) :
    Remains (a :: items) gone (a :: left) where
  sublist := h.sublist.cons_cons a
  perm := List.perm_middle.trans (h.perm.cons a)

theorem drop (h : Remains items gone left) (a : α) :
    Remains (a :: items) (a :: gone) left where
  sublist := h.sublist.cons a
  perm := h.perm.cons a

theorem trans {gone' left' : List α} (h : Remains items gone left)
    (h' : Remains left gone' left') : Remains items (gone ++ gone') left' where
  sublist := h'.sublist.trans h.sublist
  perm := by
    rw [List.append_assoc]
    exact (h'.perm.append_left gone).trans h.perm

theorem of_perm {gone' : List α} (h : Remains items gone left)
    (hgone : gone'.Perm gone) :
    Remains items gone' left where
  sublist := h.sublist
  perm := (hgone.append_right left).trans h.perm

theorem mem_iff (h : Remains items gone left) {a : α} :
    a ∈ items ↔ a ∈ gone ∨ a ∈ left := by
  rw [← h.perm.mem_iff, List.mem_append]

theorem length_eq (h : Remains items gone left) :
    gone.length + left.length = items.length := by
  rw [← h.perm.length_eq, List.length_append]

/-- When nothing is taken out, all remains. -/
theorem eq_of_nil (h : Remains items [] left) : left = items :=
  h.sublist.eq_of_length h.perm.length_eq

/-- Without the first item that has a property, the others remain. -/
theorem eraseP {p : α → Bool} {a : α} (h : items.find? p = some a) :
    Remains items [a] (items.eraseP p) := by
  obtain ⟨before, after, rfl, -, -, herase⟩ := eraseP_of_find? h
  have hperm : (before ++ a :: after).Perm (a :: (before ++ after)) := List.perm_middle
  refine ⟨List.eraseP_sublist, ?_⟩
  rw [herase]
  exact hperm.symm

end Remains

/-! ## One sweep -/

/-- The rule is undecided, and no question settles a fact that it waits for. -/
def Rule.Blocked (rule : Rule) (facts : Facts) (questions : List Question) : Prop :=
  ∃ finding, rule.condition.evaluate facts = .ok finding ∧ finding.verdict = .maybe ∧
    ∀ fact ∈ finding.unknownFacts, ∀ question ∈ questions, question.infers fact = false

theorem Rule.Blocked.finds {rule : Rule} {facts : Facts} {questions : List Question}
    (h : rule.Blocked facts questions) : rule.condition.Finds facts .maybe := by
  obtain ⟨finding, heval, hmaybe, -⟩ := h
  exact ⟨finding, heval, hmaybe⟩

/-- How a sweep of the rules ends, with the rules that are left and the fact to
ask for. -/
inductive Swept (facts : Facts) (questions : List Question) (rules : List Rule) :
    Except Fault (Option (Rule × Finding)) → List Rule → Option String → Prop where
  | circular {fault : Fault} {rule : Rule} {gone left : List Rule}
      {askFor : Option String}
      (hleft : Remains rules gone left)
        (hgone : ∀ other ∈ gone, other.condition.Finds facts .no)
      (hrule : rule ∈ left) (heval : rule.condition.evaluate facts = .error fault) :
      Swept facts questions rules (.error fault) left askFor
  | fired {rule : Rule} {finding : Finding} {gone left : List Rule}
      {askFor : Option String}
      (hleft : Remains rules (gone ++ [rule]) left)
      (hgone : ∀ other ∈ gone, other.condition.Finds facts .no)
      (heval : rule.condition.evaluate facts = .ok finding)
        (hyes : finding.verdict = .yes) :
      Swept facts questions rules (.ok (some (rule, finding))) left askFor
  | exhausted {gone left : List Rule}
      (hleft : Remains rules gone left)
        (hgone : ∀ other ∈ gone, other.condition.Finds facts .no)
      (hblocked : ∀ rule ∈ left, rule.Blocked facts questions) :
      Swept facts questions rules (.ok none) left none
  | asks {gone left : List Rule} {fact : String} {question : Question}
      (hleft : Remains rules gone left)
        (hgone : ∀ other ∈ gone, other.condition.Finds facts .no)
      (hmaybe : ∀ rule ∈ left, rule.condition.Finds facts .maybe)
      (hquestion : question ∈ questions) (hinfers : question.infers fact = true) :
      Swept facts questions rules (.ok none) left (some fact)

namespace Swept

variable {facts : Facts} {questions : List Question} {rules left : List Rule}
  {ending : Except Fault (Option (Rule × Finding))} {askFor : Option String}

/-- A rule in front that is ruled out leaves. -/
private theorem drop (h : Swept facts questions rules ending left askFor) {first : Rule}
    (hno : first.condition.Finds facts .no) :
    Swept facts questions (first :: rules) ending left askFor := by
  have hcons {gone : List Rule}
      (hgone : ∀ other ∈ gone, other.condition.Finds facts .no) :
      ∀ other ∈ first :: gone, other.condition.Finds facts .no := by
    intro other hother
    rcases List.mem_cons.1 hother with rfl | hother
    · exact hno
    · exact hgone other hother
  cases h with
  | circular hleft hgone hrule heval =>
      exact .circular (hleft.drop first) (hcons hgone) hrule heval
  | @fired rule finding gone _ _ hleft hgone heval hyes =>
      have hleft' : Remains (first :: rules) ((first :: gone) ++ [rule]) left :=
        hleft.drop first
      exact .fired hleft' (hcons hgone) heval hyes
  | exhausted hleft hgone hblocked =>
      exact .exhausted (hleft.drop first) (hcons hgone) hblocked
  | asks hleft hgone hmaybe hquestion hinfers =>
      exact .asks (hleft.drop first) (hcons hgone) hmaybe hquestion hinfers

/-- A rule in front that is undecided stays, and comes first when a fact to ask
for is chosen. -/
private theorem keep (h : Swept facts questions rules ending left askFor) {first : Rule}
    {finding : Finding} (heval : first.condition.evaluate facts = .ok finding)
    (hmaybe : finding.verdict = .maybe) :
    Swept facts questions (first :: rules) ending (first :: left)
      ((askable? questions finding).or askFor) := by
  have hfirst : first.condition.Finds facts .maybe := ⟨finding, heval, hmaybe⟩
  have hall {left : List Rule}
      (hleft : ∀ rule ∈ left, rule.condition.Finds facts .maybe) :
      ∀ rule ∈ first :: left, rule.condition.Finds facts .maybe := by
    intro rule hrule
    rcases List.mem_cons.1 hrule with rfl | hrule
    · exact hfirst
    · exact hleft rule hrule
  have hasks {gone left : List Rule} {fact : String} (hleft : Remains rules gone left)
      (hgone : ∀ other ∈ gone, other.condition.Finds facts .no)
      (hrest : ∀ rule ∈ left, rule.condition.Finds facts .maybe)
      (hfact : askable? questions finding = some fact) :
      Swept facts questions (first :: rules) (.ok none) (first :: left)
          (some fact) := by
    obtain ⟨question, hquestion, hinfers⟩ := List.any_eq_true.1
      (List.find?_some (p := fun fact => questions.any (·.infers fact)) hfact)
    exact .asks (hleft.keep first) hgone (hall hrest) hquestion hinfers
  cases h with
  | circular hleft hgone hrule hfault =>
      exact .circular (hleft.keep first) hgone (List.mem_cons_of_mem _ hrule) hfault
  | fired hleft hgone heval' hyes => exact .fired (hleft.keep first) hgone heval' hyes
  | exhausted hleft hgone hblocked =>
      cases hfact : askable? questions finding with
      | some fact =>
          exact hasks hleft hgone (fun rule hrule => (hblocked rule hrule).finds) hfact
      | none =>
          refine .exhausted (hleft.keep first) hgone fun rule hrule => ?_
          rcases List.mem_cons.1 hrule with rfl | hrule
          · have hnone := List.find?_eq_none.1 hfact
            exact ⟨finding, heval, hmaybe, by simpa using hnone⟩
          · exact hblocked rule hrule
  | asks hleft hgone hrest hquestion hinfers =>
      cases hfact : askable? questions finding with
      | some fact => exact hasks hleft hgone hrest hfact
      | none => exact .asks (hleft.keep first) hgone (hall hrest) hquestion hinfers

end Swept

/-- A sweep ends in one of the cases of `Swept`. -/
theorem sweep_cases (facts : Facts) (questions : List Question) (rules : List Rule) :
    Swept facts questions rules (sweep facts questions rules).ending
      (sweep facts questions rules).rules (sweep facts questions rules).askFor := by
  induction rules with
  | nil => exact .exhausted (.refl []) (by simp) (by simp [sweep])
  | cons rule rules ih =>
      unfold sweep
      cases heval : rule.condition.evaluate facts with
      | error fault => exact .circular (.refl _) (by simp) List.mem_cons_self heval
      | ok finding =>
          cases hverdict : finding.verdict with
          | yes =>
              simp only [hverdict]
              have hleft : Remains (rule :: rules) ([] ++ [rule]) rules :=
                (Remains.refl rules).drop rule
              exact .fired hleft (by simp) heval hverdict
          | no =>
              simp only [hverdict]
              exact ih.drop ⟨finding, heval, hverdict⟩
          | maybe =>
              simp only [hverdict]
              exact ih.keep heval hverdict

/-- The rules that are left after a sweep that fails fail in the same way when
they are swept again: those that were ruled out are gone, and none of the
others has an effect. -/
theorem sweep_again {facts : Facts} {questions : List Question} {rules : List Rule}
    {fault : Fault} (h : (sweep facts questions rules).ending = .error fault) :
    (sweep facts questions (sweep facts questions rules).rules).ending = .error fault ∧
      (sweep facts questions (sweep facts questions rules).rules).rules =
        (sweep facts questions rules).rules ∧
      (sweep facts questions (sweep facts questions rules).rules).trace = [] := by
  induction rules with
  | nil => exact nomatch h
  | cons rule rules ih =>
      cases heval : rule.condition.evaluate facts with
      | error fault' =>
          simp only [sweep, heval] at h ⊢
          exact ⟨h, trivial, trivial⟩
      | ok finding =>
          cases hverdict : finding.verdict with
          | yes =>
              simp only [sweep, heval, hverdict] at h
              exact nomatch h
          | no =>
              simp only [sweep, heval, hverdict] at h ⊢
              exact ih h
          | maybe =>
              simp only [sweep, heval, hverdict] at h ⊢
              obtain ⟨hending, hrules, htrace⟩ := ih h
              exact ⟨hending, congrArg (rule :: ·) hrules, htrace⟩

/-! ## Sweep after sweep -/

section

variable (limits : Limits) (rounds : Nat) {s : Consultation}

/-- A sweep that fails is the last one. -/
theorem forwardFor_of_error {fault : Fault}
    (h : (sweep s.facts s.questions s.rules).ending = .error fault) :
    forwardFor limits (rounds + 1) s =
      .fail fault { s with rules := (sweep s.facts s.questions s.rules).rules }
        (sweep s.facts s.questions s.rules).trace := by
  rw [forwardFor]
  exact Run.andThen_of_error (r := ⟨_, _, _⟩) h _

/-- A sweep in which no rule fires is the last one. -/
theorem forwardFor_of_none (h : (sweep s.facts s.questions s.rules).ending = .ok none) :
    forwardFor limits (rounds + 1) s =
      (Run.ok () { s with rules := (sweep s.facts s.questions s.rules).rules }
        (sweep s.facts s.questions s.rules).trace).andThen fun _ s' =>
          saturate (sweep s.facts s.questions s.rules).askFor s' := by
  rw [forwardFor]
  exact Run.andThen_of_ok (r := ⟨_, _, _⟩) h _

/-- Nothing goes wrong after a sweep in which no rule fires. -/
theorem exists_forwardFor_of_none
    (h : (sweep s.facts s.questions s.rules).ending = .ok none) :
    ∃ outcome, (forwardFor limits (rounds + 1) s).result = .ok outcome := by
  rw [forwardFor_of_none limits rounds h, Run.andThen_of_ok (r := Run.ok () _ _) rfl]
  unfold saturate askToSettle
  split
  · split <;> exact ⟨_, rfl⟩
  · exact ⟨_, rfl⟩

/-- After a rule has fired there is another sweep. -/
theorem forwardFor_of_some {rule : Rule} {finding : Finding}
    (h : (sweep s.facts s.questions s.rules).ending = .ok (some (rule, finding))) :
    forwardFor limits (rounds + 1) s =
      (Run.ok () (Consultation.applyRule
        { s with rules := (sweep s.facts s.questions s.rules).rules } rule finding).1
        ((sweep s.facts s.questions s.rules).trace ++ (Consultation.fire
          { s with rules := (sweep s.facts s.questions s.rules).rules }
            rule finding).2)).andThen
            fun _ s' => forwardFor limits rounds s' := by
  rw [Run.andThen_of_ok (r := Run.ok () _ _) rfl, forwardFor]
  dsimp only [Run.ok]
  rw [Run.andThen_of_ok (r := ⟨_, _, _⟩) h, List.append_assoc]
  rfl

end

/-- What at most so many sweeps of the rules come to, with the state that they
leave. -/
inductive Sweeps (limits : Limits) :
    Nat → Consultation → Except Fault Outcome → Consultation → Prop where
  | limit (s : Consultation) : Sweeps limits 0 s (.error (.stepLimit limits.maxSteps)) s
  | circular {rounds : Nat} {s : Consultation} {fault : Fault} {rule : Rule}
      {gone left : List Rule} (hleft : Remains s.rules gone left)
      (hgone : ∀ other ∈ gone, other.condition.Finds s.facts .no) (hrule : rule ∈ left)
      (heval : rule.condition.evaluate s.facts = .error fault) :
      Sweeps limits (rounds + 1) s (.error fault) { s with rules := left }
  | decided {rounds : Nat} {s : Consultation} {gone left : List Rule}
      (hleft : Remains s.rules gone left)
      (hgone : ∀ other ∈ gone, other.condition.Finds s.facts .no)
      (hblocked : ∀ rule ∈ left, rule.Blocked s.facts s.questions) :
      Sweeps limits (rounds + 1) s (.ok .decided) { s with rules := left }
  | asked {rounds : Nat} {s : Consultation} {fact : String} {pending : Pending}
      {gone left : List Rule} (hleft : Remains s.rules gone left)
      (hgone : ∀ other ∈ gone, other.condition.Finds s.facts .no)
      (hmaybe : ∀ rule ∈ left, rule.condition.Finds s.facts .maybe)
      (hquestion : s.questions.find? (·.infers fact) = some pending.question) :
      Sweeps limits (rounds + 1) s (.ok (.pending pending))
        (Consultation.withdraw { s with rules := left } fact)
  | fired {rounds : Nat} {s s' : Consultation} {rule : Rule} {finding : Finding}
      {gone left : List Rule} {x : Except Fault Outcome}
      (hleft : Remains s.rules (gone ++ [rule]) left)
      (hgone : ∀ other ∈ gone, other.condition.Finds s.facts .no)
      (heval : rule.condition.evaluate s.facts = .ok finding)
        (hyes : finding.verdict = .yes)
      (hrest : Sweeps limits rounds
        (Consultation.applyRule { s with rules := left } rule finding).1 x s') :
      Sweeps limits (rounds + 1) s x s'

/-- Forward chaining comes to one of the cases of `Sweeps`. -/
theorem forwardFor_cases (limits : Limits) (rounds : Nat) :
    ∀ s, (forwardFor limits rounds s).Post (Sweeps limits rounds s) := by
  refine forwardFor_post_of_sweep .limit ?failed ?settled ?fired rounds
  case failed =>
    intro rounds s fault hending
    have hswept := sweep_cases s.facts s.questions s.rules
    rw [hending] at hswept
    cases hswept with
    | circular hleft hgone hrule heval => exact .circular hleft hgone hrule heval
  case settled =>
    intro rounds s hending
    have hswept := sweep_cases s.facts s.questions s.rules
    rw [hending] at hswept
    generalize (sweep s.facts s.questions s.rules).rules = left at hswept ⊢
    generalize (sweep s.facts s.questions s.rules).askFor = askFor at hswept ⊢
    cases hswept with
    | exhausted hleft hgone hblocked => exact .decided hleft hgone hblocked
    | @asks _ _ fact question hleft hgone hmaybe hquestion hinfers =>
        cases hfind : s.questions.find? (·.infers fact) with
        | none => simp [List.find?_eq_none.1 hfind question hquestion] at hinfers
        | some first =>
            show (askToSettle fact { s with rules := left }).Post _
            unfold askToSettle
            simp only [hfind]
            exact .asked hleft hgone hmaybe hfind
  case fired =>
    intro rounds s rule finding hending y u hrest
    have hswept := sweep_cases s.facts s.questions s.rules
    rw [hending] at hswept
    cases hswept with
    | fired hleft hgone heval hyes => exact .fired hleft hgone heval hyes hrest

namespace Sweeps

variable {limits : Limits} {rounds : Nat} {s s' : Consultation}
    {x : Except Fault Outcome}

/-- One sweep more than there are rules suffices, as every sweep but the last takes
out a rule. -/
theorem length_lt (h : Sweeps limits rounds s x s') {limit : Nat}
    (hlimit : x = .error (.stepLimit limit)) : rounds ≤ s.rules.length := by
  induction h with
  | limit s => exact Nat.zero_le _
  | @circular _ _ _ rule _ _ _ _ _ heval =>
      cases hlimit
      obtain ⟨chain, hchain⟩ := rule.condition.circular_of_evaluate heval
      cases hchain
  | decided _ _ _ => cases hlimit
  | asked _ _ _ _ => cases hlimit
  | @fired rounds s s' rule finding gone left x hleft _ _ _ _ ih =>
      have hrest : rounds ≤ left.length := ih hlimit
      have hlength := hleft.length_eq
      simp only [List.length_append, List.length_singleton] at hlength
      omega

end Sweeps

end Consult
