import Consult.Fault
import Consult.Text.Blank
import Consult.Text.Decimal

/-!
# Relations between values

Values are texts. Equality compares them as they stand; the four orderings
compare the integers that they spell, and hold between no others.

## Main results

* `holds_eq_iff` — equality is identity of texts.
* `holds_of_ne_eq` — an ordering holds only between two texts that spell integers.
-/

namespace Consult

open Text (trimmed readInt?)

/-- The integer of 64 bits that a text spells, blanks around it aside. -/
def integer? (s : String) : Option Int :=
  match readInt? (trimmed s.toList) with
  | some n =>
      if Int64.minValue.toInt ≤ n && n ≤ Int64.maxValue.toInt then some n else none
  | none => none

/-- How a value is compared with an expected one. -/
inductive Relation where
  | eq
  | gt
  | gte
  | lt
  | lte
deriving DecidableEq, Repr

namespace Relation

/-- All relations with their names. -/
def names : List (String × Relation) :=
  [("eq", eq), ("gt", gt), ("gte", gte), ("lt", lt), ("lte", lte)]

/-- The name of a relation. -/
def name : Relation → String
  | eq => "eq"
  | gt => "gt"
  | gte => "gte"
  | lt => "lt"
  | lte => "lte"

/-- The sign for a relation. -/
def sign : Relation → String
  | eq => "="
  | gt => ">"
  | gte => ">="
  | lt => "<"
  | lte => "<="

/-- The relation between two integers. -/
def between : Relation → Int → Int → Bool
  | eq, a, b => a == b
  | gt, a, b => a > b
  | gte, a, b => a ≥ b
  | lt, a, b => a < b
  | lte, a, b => a ≤ b

/-- Whether the relation holds between an actual and an expected value. -/
def holds (r : Relation) (actual expected : String) : Bool :=
  if r = eq then actual == expected
  else match integer? actual, integer? expected with
    | some a, some b => r.between a b
    | _, _ => false

theorem holds_eq_iff {a b : String} : eq.holds a b = true ↔ a = b := by
  simp [holds]

theorem holds_of_ne_eq {r : Relation} (hr : r ≠ eq) {a b : String} :
    r.holds a b = true ↔ ∃ m n, integer? a = some m ∧ integer? b = some n ∧
      r.between m n = true := by
  cases ha : integer? a <;> cases hb : integer? b <;> simp [holds, hr, ha, hb]

/-- The relation of that name, blanks around it aside. -/
def ofName (token : String) : Except Fault Relation :=
  match names.lookup (Text.trim token) with
  | some r => return r
  | none => throw (.unknownRelation (Text.trim token))

end Relation

end Consult
