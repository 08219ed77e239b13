import Consult.ValueRange

/-!
# The complement of a condition

The complement of "`light` is red" is "`light` is yellow or green" if these are
all the values that `light` can take. The complement of "at least `k` of `n`" is
"at least `n - k + 1` of the complements". Where neither applies, a plain
negation is the complement.
-/

namespace Consult

namespace Comparison

/-- An equality test in which nothing is variable. -/
def isPlain (c : Comparison) : Bool :=
  c.relation = .eq && !isVariable c.name && !isVariable c.value

end Comparison

namespace Condition

/-- The complement of a comparison: one of the other known values, if there are any. -/
def complementOf (range : ValueRange) (c : Comparison) : Condition :=
  if c.isPlain then
    match (range.values c.name).filter (· ≠ c.value) with
    | [] => .negation (.compare c)
    | others => any (others.map (equals c.name))
  else .negation (.compare c)

mutual

/-- The complement of a condition, as far as the values in `range` are all there are. -/
def complement (range : ValueRange) : Condition → Condition
  | .compare c => complementOf range c
  | .negation c => c
  | .atLeast k cs =>
    if k = 0 then .negation (.atLeast k cs)
    else .atLeast (cs.length - k + 1) (complementList range cs)
termination_by structural c => c

/-- The complements of the conditions in a list. -/
def complementList (range : ValueRange) : List Condition → List Condition
  | [] => []
  | c :: cs => c.complement range :: complementList range cs
termination_by structural cs => cs

end

theorem complementList_eq (range : ValueRange) (cs : List Condition) :
    complementList range cs = cs.map (complement range) := by
  induction cs with
  | nil => rfl
  | cons c cs ih => simp [complementList, ih]

theorem complement_atLeast {range : ValueRange} {k : Nat} {cs : List Condition}
    (hk : k ≠ 0) :
    (atLeast k cs).complement range =
      atLeast (cs.length - k + 1) (cs.map (complement range)) := by
  simp [complement, hk, complementList_eq]

end Condition

end Consult
