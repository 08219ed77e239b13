import Consult.Condition.Simplify
import Consult.Proofs.Evaluation

/-!
# What evaluation comes to

Two conditions mean the same if they are judged alike whatever the facts are: with
the same verdict, or with the same fault.  The grounds of the verdict do not count.

The judgement on a conjunction or a disjunction is put together from those on its
members, the first member first.  Of this way to combine judgements no more is
needed than three laws: parts may be grouped in any way, an empty part makes no
difference, and neither does a part that has been met before.

## Main results

* `Verdict.atLeast_flip` — "at least `k`" fails if and only if enough of the opposites
  hold.
* `Condition.judge_atLeast`, `Condition.judge_joined` — the judgement on a group.
* `Judgement.join_flatMap`, `Judgement.join_map_eraseDups` — merging nested groups and
  leaving out repetitions.
-/

namespace Consult

/-- Induction along `List.eraseDups`, which goes on without the
repetitions of the first item. -/
@[elab_as_elim]
theorem eraseDups_induction {α : Type} [BEq α] {motive : List α → Prop}
    (nil : motive [])
    (cons : ∀ a as, motive (as.filter fun b => !b == a) → motive (a :: as))
    (as : List α) :
    motive as := by
  induction hlength : as.length using Nat.strongRecOn generalizing as with
  | ind n ih =>
      cases as with
      | nil => exact nil
      | cons a as =>
          have hshorter : (as.filter fun b => !b == a).length < n := by
            have hle := as.length_filter_le fun b => !b == a
            simp only [List.length_cons] at hlength
            omega
          exact cons a as (ih _ hshorter _ rfl)

/-! ## Verdicts on groups -/

namespace Verdict

/-- The verdict on two parts that are both needed. -/
def both : Verdict → Verdict → Verdict
  | yes, w => w
  | no, _ => no
  | maybe, no => no
  | maybe, _ => maybe

/-- The verdict on two parts one of which is enough. -/
def either : Verdict → Verdict → Verdict
  | no, w => w
  | yes, _ => yes
  | maybe, yes => yes
  | maybe, _ => maybe

/-- The verdict on two parts of a group that needs every one of its
members, or else just one. -/
def combine (every : Bool) : Verdict → Verdict → Verdict :=
  if every then both else either

/-- The verdict on a group of that kind without members. -/
def vacuous (every : Bool) : Verdict := if every then yes else no

theorem combine_assoc (every : Bool) (u v w : Verdict) :
    combine every (combine every u v) w = combine every u (combine every v w) := by
  cases every <;> cases u <;> cases v <;> cases w <;> rfl

@[simp] theorem combine_vacuous (every : Bool) (v : Verdict) :
    combine every v (vacuous every) = v := by
  cases every <;> cases v <;> rfl

@[simp] theorem vacuous_combine (every : Bool) (v : Verdict) :
    combine every (vacuous every) v = v := by
  cases every <;> rfl

/-- A part that has been met before makes no difference. -/
theorem combine_repeated (every : Bool) (u v w : Verdict) :
    combine every u (combine every v (combine every u w)) =
      combine every u (combine every v w) := by
  cases every <;> cases u <;> cases v <;> cases w <;> rfl

theorem count_add_count_add_count (vs : List Verdict) :
    vs.count yes + vs.count no + vs.count maybe = vs.length := by
  induction vs with
  | nil => rfl
  | cons v vs ih =>
      simp only [List.count_cons, List.length_cons]
      cases v <;> simp <;> omega

/-- All of a list hold if the first one and all others do, one of them if the first
one or one of the others does. -/
theorem atLeast_cons (every : Bool) (v : Verdict) (vs : List Verdict) :
    atLeast (if every then vs.length + 1 else 1) (v :: vs) =
      combine every v (atLeast (if every then vs.length else 1) vs) := by
  have hcounts := count_add_count_add_count vs
  simp only [atLeast, ofCounts, List.count_cons]
  cases every <;> cases v <;> simp [combine, both, either] <;> grind

theorem count_map_flip (vs : List Verdict) (v : Verdict) :
    (vs.map flip).count v = vs.count v.flip := by
  induction vs with
  | nil => rfl
  | cons w vs ih => cases w <;> cases v <;> simp [ih, flip]

/-- That at least `k` hold fails if and only if so many of the opposites hold that
fewer than `k` are left. -/
theorem atLeast_flip {k : Nat} {vs : List Verdict} (hle : k ≤ vs.length) :
    atLeast (vs.length - k + 1) (vs.map flip) = (atLeast k vs).flip := by
  have hcounts := count_add_count_add_count vs
  simp only [atLeast, ofCounts, count_map_flip, flip]
  split_ifs <;> first | rfl | omega

end Verdict

/-! ## Judgements -/

/-- A verdict, or the fault that has prevented one. -/
abbrev Judgement := Except Fault Verdict

namespace Judgement

/-- The judgement on two parts of a group, the first one judged first. -/
def combine (every : Bool) (a b : Judgement) : Judgement := do
  let v ← a
  let w ← b
  return v.combine every w

/-- The judgement on the group of these parts that needs every one of them, or else
just one. The parts are judged from left to right. -/
def join (every : Bool) (parts : List Judgement) : Judgement :=
  parts.foldr (combine every) (.ok (.vacuous every))

/-- The judgement on the group of these parts that needs at least `k` of them. -/
def atLeast (k : Nat) (parts : List Judgement) : Judgement := do
  let vs ← parts.mapM id
  return .atLeast k vs

section Laws

variable (every : Bool)

theorem combine_assoc (a b c : Judgement) :
    combine every (combine every a b) c = combine every a (combine every b c) := by
  cases a <;> cases b <;> cases c <;>
    simp [combine, bind, Except.bind, pure, Except.pure, Verdict.combine_assoc]

theorem combine_vacuous (a : Judgement) :
    combine every a (.ok (.vacuous every)) = a := by
  cases a <;> simp [combine, bind, Except.bind, pure, Except.pure]

theorem vacuous_combine (a : Judgement) :
    combine every (.ok (.vacuous every)) a = a := by
  cases a <;> simp [combine, bind, Except.bind, pure, Except.pure]

/-- If the part that has been met before has a fault, then nothing
behind it was judged. -/
theorem combine_repeated (a b c : Judgement) :
    combine every a (combine every b (combine every a c)) =
      combine every a (combine every b c) := by
  cases a <;> cases b <;> cases c <;>
    simp [combine, bind, Except.bind, pure, Except.pure, Verdict.combine_repeated]

theorem combine_self (a b : Judgement) :
    combine every a (combine every a b) = combine every a b := by
  have h := combine_repeated every a (.ok (.vacuous every)) b
  simpa only [vacuous_combine] using h

theorem combine_map {α : Type} (x : Except Fault α) (f g : α → Verdict) :
    combine every (x.map f) (x.map g) = x.map fun a => (f a).combine every (g a) := by
  cases x <;> rfl

@[simp] theorem join_nil : join every [] = .ok (.vacuous every) := rfl

@[simp] theorem join_cons (a : Judgement) (parts : List Judgement) :
    join every (a :: parts) = combine every a (join every parts) := rfl

theorem join_append (parts parts' : List Judgement) :
    join every (parts ++ parts') =
      combine every (join every parts) (join every parts') := by
  induction parts with
  | nil => rw [List.nil_append, join_nil, vacuous_combine]
  | cons a parts ih => rw [List.cons_append, join_cons, ih, join_cons, combine_assoc]

section Parts

variable {α : Type} (judge : α → Judgement)

/-- Nested groups may be replaced by their members. -/
theorem join_flatMap {members : α → List α} {as : List α}
    (h : ∀ a ∈ as, join every ((members a).map judge) = judge a) :
    join every ((as.flatMap members).map judge) = join every (as.map judge) := by
  induction as with
  | nil => rfl
  | cons a as ih =>
      have ih := ih fun b hb => h b (List.mem_cons_of_mem _ hb)
      rw [List.flatMap_cons, List.map_append, join_append, ih, h a List.mem_cons_self,
        List.map_cons, join_cons]

/-- Behind a part its repetitions may be left out. -/
private theorem combine_join_filter [BEq α] [LawfulBEq α] (a : α) (as : List α) :
    combine every (judge a) (join every ((as.filter fun b => !b == a).map judge)) =
      combine every (judge a) (join every (as.map judge)) := by
  induction as with
  | nil => rfl
  | cons b as ih =>
      by_cases hb : b = a
      · subst hb
        simpa [combine_self] using ih
      · have hkept : (b :: as).filter (fun c => !c == a) =
            b :: as.filter (fun c => !c == a) := by
          simp [hb]
        rw [hkept, List.map_cons, List.map_cons, join_cons, join_cons,
          ← combine_repeated, ih, combine_repeated]

/-- Repetitions may be left out. -/
theorem join_map_eraseDups [BEq α] [LawfulBEq α] (as : List α) :
    join every (as.eraseDups.map judge) = join every (as.map judge) := by
  induction as using eraseDups_induction with
  | nil => rfl
  | cons a as ih =>
      rw [List.eraseDups_cons, List.map_cons, join_cons, ih, combine_join_filter,
        List.map_cons, join_cons]

end Parts

end Laws

/-! ## Counting judgements -/

/-- If all parts have verdicts, these are the parts. -/
theorem eq_map_ok_of_mapM {parts : List Judgement} {vs : List Verdict}
    (h : parts.mapM id = .ok vs) : parts = vs.map .ok := by
  induction parts generalizing vs with
  | nil =>
      cases h
      rfl
  | cons a parts ih =>
      rw [List.mapM_cons] at h
      cases a with
      | error fault => cases h
      | ok v =>
          cases hparts : parts.mapM id with
          | error fault =>
              rw [hparts] at h
              cases h
          | ok ws =>
              rw [hparts] at h
              cases h
              rw [List.map_cons, ← ih hparts]

theorem atLeast_map_ok (k : Nat) (vs : List Verdict) :
    atLeast k (vs.map .ok) = .ok (.atLeast k vs) := by
  have hparts : (vs.map (.ok : Verdict → Judgement)).mapM id = .ok vs := by
    induction vs with
    | nil => rfl
    | cons v vs ih =>
        rw [List.map_cons, List.mapM_cons, ih]
        rfl
  rw [atLeast, hparts]
  rfl

@[simp] theorem map_flip_map_flip (a : Judgement) :
    Except.map Verdict.flip (Except.map Verdict.flip a) = a := by
  cases a <;> simp [Except.map]

theorem mapM_map_map (g : Verdict → Verdict) (parts : List Judgement) :
    (parts.map (Except.map g)).mapM id = (parts.mapM id).map (List.map g) := by
  induction parts with
  | nil => rfl
  | cons a parts ih =>
      rw [List.map_cons, List.mapM_cons, List.mapM_cons, ih]
      cases a with
      | error fault => rfl
      | ok v => cases parts.mapM id <;> rfl

/-- So many of the opposites hold that fewer than `k` parts are left, or
there is the same fault. -/
theorem atLeast_flip {k : Nat} {parts : List Judgement} (hle : k ≤ parts.length) :
    atLeast (parts.length - k + 1) (parts.map (Except.map .flip)) =
      (atLeast k parts).map .flip := by
  rw [atLeast, atLeast, mapM_map_map]
  cases hparts : parts.mapM id with
  | error fault => rfl
  | ok vs =>
      have hlength : parts.length = vs.length := by
        rw [eq_map_ok_of_mapM hparts, List.length_map]
      rw [hlength] at hle ⊢
      exact congrArg Except.ok (Verdict.atLeast_flip hle)

/-- All parts are needed if all count, and just one if one does. -/
theorem atLeast_eq_join (every : Bool) (parts : List Judgement) :
    atLeast (if every then parts.length else 1) parts = join every parts := by
  induction parts with
  | nil => cases every <;> rfl
  | cons a parts ih =>
      rw [join_cons, ← ih, atLeast, atLeast, List.mapM_cons]
      cases a with
      | error fault => rfl
      | ok v =>
          cases hparts : parts.mapM id with
          | error fault => rfl
          | ok vs =>
              have hlength : parts.length = vs.length := by
                rw [eq_map_ok_of_mapM hparts, List.length_map]
              rw [List.length_cons, hlength]
              exact congrArg Except.ok (Verdict.atLeast_cons every v vs)

end Judgement

/-! ## The judgement on a condition -/

namespace Condition

/-- What evaluating a condition comes to. -/
def judge (facts : Facts) (c : Condition) : Judgement :=
  (c.evaluate facts).map (·.verdict)

variable (facts : Facts)

@[simp] theorem judge_negation (c : Condition) :
    (negation c).judge facts = (c.judge facts).map .flip := by
  rw [judge, judge, evaluate]
  cases c.evaluate facts <;> rfl

/-- Judging the members of a group and evaluating them fail together. -/
private theorem mapM_map_judge (cs : List Condition) :
    (cs.map (judge facts)).mapM id =
      (evaluateAll facts cs).map (List.map (·.verdict)) := by
  induction cs with
  | nil => rfl
  | cons c cs ih =>
      rw [List.map_cons, List.mapM_cons, ih, evaluateAll, judge]
      cases c.evaluate facts with
      | error fault => rfl
      | ok f => cases evaluateAll facts cs <;> rfl

@[simp] theorem judge_atLeast (k : Nat) (cs : List Condition) :
    (atLeast k cs).judge facts = Judgement.atLeast k (cs.map (judge facts)) := by
  rw [Judgement.atLeast, mapM_map_judge, judge, evaluate]
  cases evaluateAll facts cs <;> rfl

theorem joined_eq (every : Bool) (cs : List Condition) :
    joined every cs = atLeast (if every then cs.length else 1) cs := by
  cases every <;> rfl

@[simp] theorem judge_joined (every : Bool) (cs : List Condition) :
    (joined every cs).judge facts = Judgement.join every (cs.map (judge facts)) := by
  rw [joined_eq, judge_atLeast, ← Judgement.atLeast_eq_join, List.length_map]

/-- Of two conditions with judgements that correspond, both have the same fault or
neither has one, and then their verdicts correspond. -/
theorem evaluate_of_judge_eq {facts : Facts} {c d : Condition} {g : Verdict → Verdict}
    (h : d.judge facts = (c.judge facts).map g) :
    (∀ fault, d.evaluate facts = .error fault ↔ c.evaluate facts = .error fault) ∧
      ∀ f f', c.evaluate facts = .ok f → d.evaluate facts = .ok f' →
        f'.verdict = g f.verdict := by
  unfold judge at h
  constructor
  · intro fault
    cases hc : c.evaluate facts <;> cases hd : d.evaluate facts <;>
      simp_all [Except.map]
  · intro f f' hf hf'
    simpa [hf, hf', Except.map] using h

end Condition

end Consult
