import Consult.Knowledge
import Consult.Verdict

/-!
# Findings and their grounds

The evaluation of a condition gives a finding: a verdict and the grounds for it.
A ground is a fact that is not known yet, the finding on a part of the
condition, or the reason why a known fact has its value. Since a rule's finding
becomes the reason for its consequences, a finding leads back all the way to
what was given and what was answered.

## Main results

* `Finding.induction` — induction over a finding and all findings inside it.
-/

namespace Consult

mutual

/-- Why a fact has its value. -/
inductive Reason where
  /-- The user chose an option of a question. -/
  | answered (question : Question) (choice : Choice)
  /-- A rule fired. -/
  | inferred (rule : Rule) (finding : Finding)
  /-- Somebody says so. -/
  | given (explanation : String)

/-- A verdict and the grounds for it. -/
inductive Finding where
  | because (verdict : Verdict) (grounds : List Ground)

/-- A ground for a verdict. -/
inductive Ground where
  /-- A fact without a value so far. -/
  | unknown (fact : String)
  /-- The finding on a part. -/
  | finding (finding : Finding)
  /-- The reason for the value of a known fact. -/
  | cause (reason : Reason)

end

/-! ## Equality -/

mutual

/-- Decides whether two reasons are the same. -/
def Reason.decEq : (a b : Reason) → Decidable (a = b)
  | .answered q c, .answered q' c' => decidable_of_iff (q = q' ∧ c = c') (by simp)
  | .inferred r f, .inferred r' f' =>
    have := Finding.decEq f f'
    decidable_of_iff (r = r' ∧ f = f') (by simp)
  | .given s, .given s' => decidable_of_iff (s = s') (by simp)
  | .answered _ _, .inferred _ _ => isFalse nofun
  | .answered _ _, .given _ => isFalse nofun
  | .inferred _ _, .answered _ _ => isFalse nofun
  | .inferred _ _, .given _ => isFalse nofun
  | .given _, .answered _ _ => isFalse nofun
  | .given _, .inferred _ _ => isFalse nofun
termination_by structural a => a

/-- Decides whether two findings are the same. -/
def Finding.decEq : (a b : Finding) → Decidable (a = b)
  | .because v gs, .because v' gs' =>
    have := Ground.decEqList gs gs'
    decidable_of_iff (v = v' ∧ gs = gs') (by simp)
termination_by structural a => a

/-- Decides whether two grounds are the same. -/
def Ground.decEq : (a b : Ground) → Decidable (a = b)
  | .unknown s, .unknown s' => decidable_of_iff (s = s') (by simp)
  | .finding f, .finding f' =>
    have := Finding.decEq f f'
    decidable_of_iff (f = f') (by simp)
  | .cause r, .cause r' =>
    have := Reason.decEq r r'
    decidable_of_iff (r = r') (by simp)
  | .unknown _, .finding _ => isFalse nofun
  | .unknown _, .cause _ => isFalse nofun
  | .finding _, .unknown _ => isFalse nofun
  | .finding _, .cause _ => isFalse nofun
  | .cause _, .unknown _ => isFalse nofun
  | .cause _, .finding _ => isFalse nofun
termination_by structural a => a

/-- Decides whether two lists of grounds are the same. -/
def Ground.decEqList : (as bs : List Ground) → Decidable (as = bs)
  | [], [] => isTrue rfl
  | [], _ :: _ => isFalse nofun
  | _ :: _, [] => isFalse nofun
  | a :: as, b :: bs =>
    have := Ground.decEq a b
    have := Ground.decEqList as bs
    decidable_of_iff (a = b ∧ as = bs) (by simp)
termination_by structural as => as

end

instance : DecidableEq Reason := Reason.decEq
instance : DecidableEq Finding := Finding.decEq
instance : DecidableEq Ground := Ground.decEq

namespace Finding

/-! ## Parts of a finding -/

/-- The verdict of a finding. -/
def verdict : Finding → Verdict
  | because v _ => v

/-- The grounds of a finding. -/
def grounds : Finding → List Ground
  | because _ gs => gs

@[simp] theorem verdict_because (v : Verdict) (gs : List Ground) :
    (because v gs).verdict = v :=
  rfl

@[simp] theorem grounds_because (v : Verdict) (gs : List Ground) :
    (because v gs).grounds = gs :=
  rfl

/-- Induction over a finding and all findings that are grounds inside it. -/
@[elab_as_elim]
theorem induction {motive : Finding → Prop}
    (because : ∀ v gs, (∀ f, Ground.finding f ∈ gs → motive f) → motive (.because v gs))
    (f : Finding) : motive f :=
  Finding.rec (motive_1 := fun _ => True) (motive_2 := motive)
    (motive_3 := fun g => ∀ f, g = .finding f → motive f)
    (motive_4 := fun gs => ∀ f, Ground.finding f ∈ gs → motive f)
    (fun _ _ => trivial) (fun _ _ _ => trivial) (fun _ => trivial)
    because
    nofun
    (fun _ ih _ h => by cases h; exact ih)
    nofun
    (by simp)
    (fun _ _ hg hgs f hf => by
      rcases List.mem_cons.1 hf with h | h
      · exact hg f h.symm
      · exact hgs f h)
    f

/-! ## Combining findings -/

/-- The finding that a fact has no value so far. -/
def missing (fact : String) : Finding := because .maybe [.unknown fact]

/-- The finding on the negation. -/
def negate (f : Finding) : Finding := because f.verdict.flip [.finding f]

/-- The finding on "at least `k`" of the parts with these findings. The grounds are
the parts that bear the verdict out. -/
def ofGroup (k : Nat) (parts : List Finding) : Finding :=
  let v := Verdict.atLeast k (parts.map verdict)
  let bearing := if v = .no then parts else parts.filter (·.verdict = v)
  because v (bearing.map .finding)

@[simp] theorem verdict_negate (f : Finding) : f.negate.verdict = f.verdict.flip := rfl

@[simp] theorem verdict_ofGroup (k : Nat) (parts : List Finding) :
    (ofGroup k parts).verdict = Verdict.atLeast k (parts.map verdict) := rfl

end Finding

/-! ## Findings in words -/

mutual

/-- A reason in words. -/
def Reason.text : Reason → String
  | .answered q c =>
    s!"the question '{q.description}' was answered with '{c.description}'"
  | .inferred r f => s!"the rule '{r.description}' was applicable because " ++ f.text
  | .given explanation => explanation
termination_by structural r => r

/-- A finding in words. -/
def Finding.text : Finding → String
  | .because v gs =>
    "[" ++ v.name ++ (if gs.isEmpty then ""
      else " because " ++ Ground.textJoined gs) ++ "]"
termination_by structural f => f

/-- A ground in words. -/
def Ground.text : Ground → String
  | .unknown fact => fact
  | .finding f => f.text
  | .cause r => r.text
termination_by structural g => g

/-- The grounds in words, with "and" between them. -/
def Ground.textJoined : List Ground → String
  | [] => ""
  | g :: gs => if gs.isEmpty then g.text else g.text ++ " and " ++ Ground.textJoined gs
termination_by structural gs => gs

end

end Consult
