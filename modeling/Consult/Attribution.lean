import Consult.Finding

/-!
# Attribution

How much each unknown fact is responsible for a finding. A unit of
responsibility is split evenly among the grounds that more knowledge could still
change: unknown facts, and findings that are themselves undecided. These pass
their share on to their own grounds.

The arithmetic of shares is a parameter. Consultations compute with binary64
numbers, whose rounding can decide between facts of nearly equal weight.

## Main results

* `perm_sortHeaviest` — sorting by weight loses and invents nothing.
-/

namespace Consult

/-- Numbers that responsibility is measured in. -/
class Weight (ω : Type) where
  one : ω
  add : ω → ω → ω
  /-- A weight split evenly into so many shares. -/
  share : ω → Nat → ω
  heavier : ω → ω → Bool

instance : Weight Float where
  one := 1
  add a b := a + b
  share a n := a / Float.ofNat n
  heavier a b := a > b

/-- Whether more knowledge could still change the ground. -/
def Ground.isOpen : Ground → Bool
  | .unknown _ => true
  | .finding f => f.verdict = .maybe
  | .cause _ => false

section Shares

variable {ω : Type} [Weight ω]

/-- Adds to the total of a fact; a fact without a total comes last. -/
def addShare (fact : String) (share : ω) : List (String × ω) → List (String × ω)
  | [] => [(fact, share)]
  | (name, total) :: rest =>
    if name = fact then (name, Weight.add total share) :: rest
    else (name, total) :: addShare fact share rest

mutual

/-- Splits a share among the open grounds of a finding and adds up
what reaches each fact. -/
def Finding.distribute (share : ω) : Finding → List (String × ω) → List (String × ω)
  | .because _ gs, totals =>
    Ground.distributeAll (Weight.share share (gs.countP Ground.isOpen)) gs totals
termination_by structural f => f

/-- Passes a share on to a ground, if it is open. -/
def Ground.distribute (share : ω) : Ground → List (String × ω) → List (String × ω)
  | .unknown fact, totals => addShare fact share totals
  | .finding f, totals =>
      if f.verdict = .maybe then f.distribute share totals else totals
  | .cause _, totals => totals
termination_by structural g => g

/-- Passes the same share on to each ground that is open. -/
def Ground.distributeAll (share : ω) :
    List Ground → List (String × ω) → List (String × ω)
  | [], totals => totals
  | g :: gs, totals => Ground.distributeAll share gs (g.distribute share totals)
termination_by structural gs => gs

end

/-- Puts an entry in front of the first one that is not heavier. -/
def insertByWeight (e : String × ω) : List (String × ω) → List (String × ω)
  | [] => [e]
  | d :: rest =>
      if Weight.heavier d.2 e.2 then d :: insertByWeight e rest else e :: d :: rest

/-- The entries with the heaviest first; entries of equal weight keep their order. -/
def sortHeaviest : List (String × ω) → List (String × ω)
  | [] => []
  | e :: rest => insertByWeight e (sortHeaviest rest)

private theorem perm_insertByWeight (e : String × ω) (l : List (String × ω)) :
    (insertByWeight e l).Perm (e :: l) := by
  induction l with
  | nil => exact .refl _
  | cons d rest ih =>
    simp only [insertByWeight]
    split
    · exact (ih.cons d).trans (.swap ..)
    · exact .refl _

/-- Sorting by weight loses and invents nothing. -/
theorem perm_sortHeaviest (l : List (String × ω)) : (sortHeaviest l).Perm l := by
  induction l with
  | nil => exact .refl _
  | cons e rest ih => exact (perm_insertByWeight e _).trans (ih.cons e)

end Shares

namespace Finding

/-- The facts that a finding waits for with the share of each, the heaviest first. -/
def causes (ω : Type) [Weight ω] (f : Finding) : List (String × ω) :=
  sortHeaviest (f.distribute (Weight.one : ω) [])

/-- The facts that a finding waits for, the most responsible first. -/
def unknownFacts (f : Finding) : List String := (f.causes Float).map (·.1)

end Finding

end Consult
