import Consult.Finding
import Consult.Variable

/-!
# Recorded facts

The facts known in a consultation, each with its value and the reason for it. A
value may be a variable, in which case the fact has whatever value the variable
stands for; `resolve` follows such chains. A fact keeps its first value: what
contradicts it is reported and not recorded.

## Main results

* `Facts.isVariable_of_resolve` — a chain that is followed to its end leads to a
  literal.
* `Facts.get?_record` — recording consequences never changes a recorded fact.
-/

namespace Consult

/-- The value of a fact and the reason for it. -/
structure Record where
  value : String
  reason : Reason
deriving DecidableEq

/-- The recorded facts by name. -/
abbrev Facts := KeyMap Record

/-- Where a chain of variables leads. -/
inductive Resolution where
  /-- To a literal. -/
  | literal (text : String)
  /-- To a fact that is not recorded. -/
  | unknown (fact : String)
deriving DecidableEq, Repr

/-- A consequence that was not recorded, since the fact has another value. -/
structure Conflict where
  fact : String
  existing : String
  rejected : String
deriving DecidableEq, Repr

/-- The value of a fact that nothing can determine, and a fact with that value. -/
def undefinedValue : String := "undefined"

namespace Facts

/-! ## Following variables -/

/-- Follows a chain of variables over at most `links` facts; `visited` holds the
variables met before, the latest first. -/
def follow (facts : Facts) :
    (links : Nat) → (visited : List String) → String → Except Fault Resolution
  | links, visited, text =>
    match target? text with
    | none => return .literal text
    | some fact =>
      if text ∈ visited then throw (.circular (text :: visited).reverse)
      else match facts.get? fact with
        | none => return .unknown fact
        | some record =>
          match links with
          | 0 => throw (.circular (text :: visited).reverse)
          | links + 1 => follow facts links (text :: visited) record.value

/-- Follows a chain of variables to its end. A chain without repetition has no more
links than there are facts. -/
def resolve (facts : Facts) (text : String) : Except Fault Resolution :=
  facts.follow facts.size [] text

private theorem isVariable_of_follow {facts : Facts} {links : Nat}
    {visited : List String} {text value : String}
    (h : facts.follow links visited text = .ok (.literal value)) :
    isVariable value = false := by
  fun_induction follow facts links visited text with
  | case1 links visited text ht =>
    obtain rfl := Resolution.literal.inj (Except.ok.inj h)
    simp [isVariable, ht]
  | case2 links visited text fact ht hmem => cases h
  | case3 links visited text fact ht hnew hnone => cases h
  | case4 visited text fact ht hnew record hget => cases h
  | case5 visited text fact ht hnew record hget links ih => exact ih h

/-- A chain that is followed to its end leads to a literal. -/
theorem isVariable_of_resolve {facts : Facts} {text value : String}
    (h : facts.resolve text = .ok (.literal value)) : isVariable value = false :=
  isVariable_of_follow h

/-- A literal stands for itself. -/
theorem resolve_of_not_isVariable (facts : Facts) {text : String}
    (h : isVariable text = false) :
    facts.resolve text = .ok (.literal text) := by
  unfold resolve follow
  rw [target?_eq_none h]
  rfl

/-! ## Values -/

/-- The value of a fact, unless it is not known. -/
def value (facts : Facts) (name : String) : Except Fault (Option String) :=
  if isVariable name then throw (.variableAsName name)
  else match facts.get? name with
    | none => return none
    | some record => do
      match ← facts.resolve record.value with
      | .literal text => return some text
      | .unknown _ => return none

/-- The value of the fact that a name or a variable leads to, unless it is not known. -/
def lookup (facts : Facts) (name : String) : Except Fault (Option String) := do
  match ← facts.resolve name with
  | .literal name => facts.value name
  | .unknown _ => return none

/-! ## Recording -/

/-- The conflict of a consequence with what is recorded, if there is one. -/
def conflict? (facts : Facts) (fact value : String) : Option Conflict :=
  match facts.get? fact with
  | some record =>
      if record.value = value then none else some ⟨fact, record.value, value⟩
  | none => none

/-- Records the consequences of facts that have no value yet. -/
def record (facts : Facts) (consequences : Consequences) (reason : Reason) : Facts :=
  consequences.entries.foldl
    (fun facts (fact, value) => facts.insertIfNew fact ⟨value, reason⟩) facts

/-- The conflicts of consequences with what is recorded. -/
def conflicts (facts : Facts) (consequences : Consequences) : List Conflict :=
  consequences.entries.filterMap fun (fact, value) => facts.conflict? fact value

/-- The facts of a consultation that has not begun: only `undefined`,
whose value is its name. -/
def initial : Facts :=
  KeyMap.empty.insert undefinedValue
    ⟨undefinedValue, .given "Built-in constant for facts that cannot be determined"⟩

private theorem get?_foldl_insertIfNew (reason : Reason)
    (entries : List (String × String)) (facts : Facts) {fact : String} {r : Record}
    (h : facts.get? fact = some r) :
    (entries.foldl (fun facts (fact, value) => facts.insertIfNew fact ⟨value, reason⟩)
      facts).get? fact
      = some r := by
  induction entries generalizing facts with
  | nil => exact h
  | cons e rest ih =>
    refine ih _ ?_
    by_cases hc : facts.contains e.1
    · simpa [KeyMap.insertIfNew, hc] using h
    · have hne : fact ≠ e.1 := by
        rintro rfl
        simp [KeyMap.contains, h] at hc
      simpa [KeyMap.insertIfNew, hc, KeyMap.get?_insert_of_ne _ _ hne] using h

/-- Recording consequences never changes a recorded fact. -/
theorem get?_record (facts : Facts) (consequences : Consequences) (reason : Reason)
    {fact : String} {r : Record} (h : facts.get? fact = some r) :
    (facts.record consequences reason).get? fact = some r :=
  get?_foldl_insertIfNew reason consequences.entries facts h

end Facts

end Consult
