import Consult.Relation

/-!
# Conditions

A condition compares one fact with a value, negates another condition, or holds
when at least so many of a list of conditions hold. Conjunction and disjunction
are the groups that need all or one of their members.

## Main results

* `Condition.induction` — induction over a condition and all that it contains.
* `mem_leaves_atLeast` — the comparisons of a group are those of its members.
-/

namespace Consult

/-- Compares the fact `name` with `value`; either may be a variable. -/
structure Comparison where
  name : String
  value : String
  relation : Relation
deriving DecidableEq, Repr

namespace Comparison

/-- The comparison, without the blanks around name and value. -/
def ofTrimmed (name : String) (relation : Relation) (value : String) : Comparison :=
  ⟨Text.trim name, Text.trim value, relation⟩

/-- A comparison in words. -/
def text (c : Comparison) : String := c.name ++ " " ++ c.relation.sign ++ " " ++ c.value

end Comparison

/-- A condition over facts. -/
inductive Condition where
  | compare (comparison : Comparison)
  | negation (condition : Condition)
  /-- Holds when at least `threshold` of the conditions hold. -/
  | atLeast (threshold : Nat) (conditions : List Condition)
deriving Inhabited

namespace Condition

/-- Induction over a condition and all that it contains. -/
@[elab_as_elim]
theorem induction {motive : Condition → Prop}
    (compare : ∀ c, motive (.compare c))
    (negation : ∀ c, motive c → motive (.negation c))
    (atLeast : ∀ k cs, (∀ c ∈ cs, motive c) → motive (.atLeast k cs))
    (c : Condition) : motive c :=
  Condition.rec (motive_1 := motive) (motive_2 := fun cs => ∀ c ∈ cs, motive c)
    compare negation atLeast
    (by simp)
    (fun _ _ hc hcs d hd => by
      rcases List.mem_cons.1 hd with rfl | hd
      · exact hc
      · exact hcs d hd)
    c

/-! ## Equality -/

mutual

/-- Decides whether two conditions are the same tree. -/
def decEq : (a b : Condition) → Decidable (a = b)
  | .compare c, .compare d => decidable_of_iff (c = d) (by simp)
  | .negation c, .negation d =>
    have := decEq c d
    decidable_of_iff (c = d) (by simp)
  | .atLeast k cs, .atLeast l ds =>
    have := decEqList cs ds
    decidable_of_iff (k = l ∧ cs = ds) (by simp)
  | .compare _, .negation _ => isFalse nofun
  | .compare _, .atLeast _ _ => isFalse nofun
  | .negation _, .compare _ => isFalse nofun
  | .negation _, .atLeast _ _ => isFalse nofun
  | .atLeast _ _, .compare _ => isFalse nofun
  | .atLeast _ _, .negation _ => isFalse nofun
termination_by structural a => a

/-- Decides whether two lists of conditions are the same. -/
def decEqList : (as bs : List Condition) → Decidable (as = bs)
  | [], [] => isTrue rfl
  | [], _ :: _ => isFalse nofun
  | _ :: _, [] => isFalse nofun
  | a :: as, b :: bs =>
    have := decEq a b
    have := decEqList as bs
    decidable_of_iff (a = b ∧ as = bs) (by simp)
termination_by structural as => as

end

instance : DecidableEq Condition := decEq

/-! ## Building conditions -/

/-- The condition that the fact `name` has the value `value`. -/
def equals (name value : String) : Condition := .compare (.ofTrimmed name .eq value)

/-- The condition that all of these hold. -/
def all (cs : List Condition) : Condition := .atLeast cs.length cs

/-- The condition that one of these holds. -/
def any (cs : List Condition) : Condition := .atLeast 1 cs

/-- The condition that at least `k` of these hold, if there are so many. -/
def group? (k : Nat) (cs : List Condition) : Except Fault Condition :=
  if k ≤ cs.length then return .atLeast k cs
  else throw (.excessiveThreshold k cs.length)

/-- Whether the condition is a group that needs all of its members. -/
def isAll : Condition → Bool
  | .atLeast k cs => k = cs.length
  | _ => false

/-- Whether the condition is a group that needs one of its members. -/
def isAny : Condition → Bool
  | .atLeast k _ => k = 1
  | _ => false

/-! ## What a condition mentions -/

mutual

/-- The comparisons in a condition, from left to right. -/
def leaves : Condition → List Comparison
  | .compare c => [c]
  | .negation c => c.leaves
  | .atLeast _ cs => leavesList cs
termination_by structural c => c

/-- The comparisons in a list of conditions, from left to right. -/
def leavesList : List Condition → List Comparison
  | [] => []
  | c :: cs => c.leaves ++ leavesList cs
termination_by structural cs => cs

end

theorem leavesList_eq (cs : List Condition) : leavesList cs = cs.flatMap leaves := by
  induction cs with
  | nil => rfl
  | cons c cs ih => simp [leavesList, ih]

@[simp] theorem leaves_compare (c : Comparison) : (compare c).leaves = [c] := rfl

@[simp] theorem leaves_negation (c : Condition) : (negation c).leaves = c.leaves := rfl

@[simp] theorem leaves_atLeast (k : Nat) (cs : List Condition) :
    (atLeast k cs).leaves = cs.flatMap leaves := leavesList_eq cs

/-- The comparisons of a group are those of its members. -/
theorem mem_leaves_atLeast {k : Nat} {cs : List Condition} {l : Comparison} :
    l ∈ (atLeast k cs).leaves ↔ ∃ c ∈ cs, l ∈ c.leaves := by simp

theorem forall_mem_leaves_atLeast {k : Nat} {cs : List Condition}
    {P : Comparison → Prop} :
    (∀ l ∈ (atLeast k cs).leaves, P l) ↔ ∀ c ∈ cs, ∀ l ∈ c.leaves, P l := by
  simp only [mem_leaves_atLeast]
  exact ⟨fun h c hc l hl => h l ⟨c, hc, hl⟩, fun h l ⟨c, hc, hl⟩ => h c hc l hl⟩

/-- The names of the facts in a condition, in order of their first appearance. -/
def facts (c : Condition) : List String := (c.leaves.map (·.name)).eraseDups

/-! ## Thresholds -/

mutual

/-- Finds the first group that asks for more conditions than it has. -/
def check : Condition → Except Fault Unit
  | .compare _ => return ()
  | .negation c => c.check
  | .atLeast k cs =>
    if k ≤ cs.length then checkList cs else throw (.excessiveThreshold k cs.length)
termination_by structural c => c

/-- Finds the first group in a list that asks for more conditions than it has. -/
def checkList : List Condition → Except Fault Unit
  | [] => return ()
  | c :: cs => do c.check; checkList cs
termination_by structural cs => cs

end

/-! ## Conditions in words -/

mutual

/-- A condition in words. -/
def text : Condition → String
  | .compare c => c.text
  | .negation c => "not (" ++ c.text ++ ")"
  | .atLeast k cs =>
    if k = 1 && cs.length = 1 then textJoined "" cs
    else if k = cs.length then "(" ++ textJoined " and " cs ++ ")"
    else if k = 1 then "(" ++ textJoined " or " cs ++ ")"
    else s!"at least {k} of (" ++ textJoined ", " cs ++ ")"
termination_by structural c => c

/-- A list of conditions in words, with a separator between them. -/
def textJoined (separator : String) : List Condition → String
  | [] => ""
  | c :: cs =>
      if cs.isEmpty then c.text else c.text ++ separator ++ textJoined separator cs
termination_by structural cs => cs

end

end Condition

end Consult
