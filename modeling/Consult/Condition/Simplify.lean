import Consult.Condition.Complement

/-!
# Simplifying conditions

Simplifying removes double negations, groups of one condition and repeated
members, merges nested conjunctions and nested disjunctions, and replaces a
conjunction of alternatives for one fact by the alternatives they have in
common.

What conjunctions and disjunctions have in common is stated for both at once, by
groups that need every one of their members, or else just one.
-/

namespace Consult.Condition

/-! ## Alternatives for one fact -/

/-- The fact and the value of a plain equality test. -/
def plainTest? : Condition → Option (String × String)
  | .compare c => if c.isPlain then some (c.name, c.value) else none
  | _ => none

/-- A fact and the values of which it is to have one, if the condition
says no more than that. -/
def alternatives? : Condition → Option (String × List String)
  | .compare c => (plainTest? (.compare c)).map fun (name, value) => (name, [value])
  | .negation _ => none
  | .atLeast k cs =>
    if k = 1 then
      match cs.mapM plainTest? with
      | some ((name, value) :: tests) =>
        if tests.all (·.1 = name) then some (name, value :: tests.map (·.2)) else none
      | _ => none
    else none

/-- The values that `values` has in common with all of the alternatives, if they
are for the same fact. -/
def commonValues? (name : String) (values : List String) :
    List Condition → Option (List String)
  | [] => some values
  | c :: cs =>
    match alternatives? c with
    | some (other, others) =>
      if other = name then commonValues? name (values.filter (· ∈ others)) cs else none
    | none => none

/-- The condition that the fact `name` has one of these values. -/
def oneOf (name : String) : List String → Condition
  | [value] => equals name value
  | values => any (values.map (equals name))

/-- What a conjunction of alternatives for one fact comes to, if they
have values in common. -/
def intersection? : List Condition → Option Condition
  | [] => none
  | c :: cs =>
    match alternatives? c with
    | some (name, values) =>
      match commonValues? name values cs with
      | some (value :: rest) => some (oneOf name (value :: rest))
      | _ => none
    | none => none

/-! ## Conjunctions and disjunctions -/

/-- The group that needs every one of its members, or else just one. -/
def joined (every : Bool) (cs : List Condition) : Condition :=
  if every then all cs else any cs

/-- Whether the condition is a group of that kind. -/
def isJoined (every : Bool) (c : Condition) : Bool := if every then c.isAll else c.isAny

/-- The members of a group of that kind; any other condition is taken as it is. -/
def membersOf (every : Bool) : Condition → List Condition
  | .atLeast k cs => if isJoined every (.atLeast k cs) then cs else [.atLeast k cs]
  | c => [c]

/-- The members of a group with those of nested groups of its kind in their
place, without repetitions. -/
def merged (every : Bool) (cs : List Condition) : List Condition :=
  (cs.flatMap (membersOf every)).eraseDups

/-- Simplifies a conjunction or a disjunction of simple members. -/
def simplifyJoined (every : Bool) (cs : List Condition) : Condition :=
  match merged every cs with
  | [c] => c
  | flat => if every then (intersection? flat).getD (all flat) else any flat

/-- Simplifies a group of simple members. -/
def simplifyGroup (k : Nat) (cs : List Condition) : Condition :=
  if k ≠ cs.length && k ≠ 1 then .atLeast k cs
  else match k, cs with
    | 1, [c] => c
    | _, _ => simplifyJoined (k = cs.length) cs

/-! ## All of a condition -/

mutual

/-- An equivalent condition in normal form. -/
def simplify : Condition → Condition
  | .compare c => .compare c
  | .negation c =>
    match simplify c with
    | .negation d => d
    | d => .negation d
  | .atLeast k cs => simplifyGroup k (simplifyList cs)
termination_by structural c => c

/-- The conditions of a list, each in normal form. -/
def simplifyList : List Condition → List Condition
  | [] => []
  | c :: cs => c.simplify :: simplifyList cs
termination_by structural cs => cs

end

theorem simplifyList_eq (cs : List Condition) : simplifyList cs = cs.map simplify := by
  induction cs with
  | nil => rfl
  | cons c cs ih => simp [simplifyList, ih]

@[simp] theorem simplify_atLeast (k : Nat) (cs : List Condition) :
    (atLeast k cs).simplify = simplifyGroup k (cs.map simplify) := by
  rw [simplify, simplifyList_eq]

end Consult.Condition
