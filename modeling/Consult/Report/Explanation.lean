import Consult.Facts

/-!
# Why a fact has its value

The explanation of a fact is a tree, drawn with one line per node: the rule that
fired, its verdict, and below them the reasons for the facts that the verdict
rests on, down to what was answered or given.
-/

namespace Consult

namespace Report

/-- The mark in front of a line that is something's own. -/
inductive Mark where
  | rule
  | verdict
  | unknown
  | given

/-- How a mark is drawn. -/
def Mark.text : Mark → String
  | rule => "├─"
  | verdict => "├─ ="
  | unknown => "×"
  | given => "└─"

/-- The lead of a line at a depth of the tree. -/
def indent (depth : Nat) : String := "".intercalate (List.replicate depth "│  ")

/-- A line of an explanation. -/
def line (depth : Nat) (mark : Mark) (content : String) : String :=
  indent depth ++ mark.text ++ " " ++ content ++ "\n"

end Report

open Report (line)

mutual

/-- The lines that explain a reason. -/
def Reason.explain (depth : Nat) : Reason → List String
  | .answered q c =>
    [line depth .given ("\"" ++ q.description ++ "\" answered \"" ++
      c.description ++ "\"")]
  | .inferred r f =>
    line depth .rule (r.text ++ ": " ++ r.condition.text) :: f.explain (depth + 1)
  | .given explanation => [line depth .given explanation]
termination_by structural r => r

/-- The lines that explain a finding. -/
def Finding.explain (depth : Nat) : Finding → List String
  | .because v gs => line depth .verdict v.name :: Ground.explainAll (depth + 1) gs
termination_by structural f => f

/-- The lines that explain a ground. -/
def Ground.explain (depth : Nat) : Ground → List String
  | .unknown fact => [line depth .unknown (fact ++ " is unknown")]
  | .finding f => f.explain depth
  | .cause r => r.explain depth
termination_by structural g => g

/-- The lines that explain the grounds of a list. -/
def Ground.explainAll (depth : Nat) : List Ground → List String
  | [] => []
  | g :: gs => g.explain depth ++ Ground.explainAll depth gs
termination_by structural gs => gs

end

namespace Facts

/-- The explanation of the fact that a name or a variable leads to. A variable that
leads nowhere is taken for a name. -/
def explain (facts : Facts) (goal : String) : String :=
  let name :=
    match facts.resolve goal with
    | .ok (.literal name) => name
    | _ => goal
  match facts.get? name with
  | some record =>
      name ++ " = " ++ record.value ++ "\n" ++ "".intercalate (record.reason.explain 0)
  | none => name ++ " is unknown\n"

end Facts

end Consult
