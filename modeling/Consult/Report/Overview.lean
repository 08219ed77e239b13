import Consult.Consultation
import Consult.Report.Table

/-!
# What is in a knowledge base, and what it concluded

Tables of the rules, questions and goals of a knowledge base, and of the
conclusions that a consultation has come to.
-/

namespace Consult

namespace Choice

/-- An option with its consequences. -/
def summary (c : Choice) : String := c.description ++ " (" ++ c.consequences.text ++ ")"

end Choice

namespace Answer

/-- An answer with the value that it is for. -/
def summary (a : Answer) : String := a.value.getD "otherwise" ++ ": " ++ a.description

end Answer

namespace KnowledgeBase

/-- The table of the rules. -/
def ruleTable (kb : KnowledgeBase) : String :=
  Report.table ["Rule", "When", "Then"]
    (kb.rules.map fun r => [r.text, r.condition.text, r.consequences.text])

/-- The table of the questions. -/
def questionTable (kb : KnowledgeBase) : String :=
  Report.table ["Question", "Options"]
    (kb.questions.map fun q =>
      [q.description, "\n".intercalate (q.options.map Choice.summary)])

/-- The table of the goals. -/
def goalTable (kb : KnowledgeBase) : String :=
  Report.table ["Goal", "Description", "Answers"]
    (kb.goals.map fun g =>
      [g.name, g.description, "\n".intercalate (g.answers.map Answer.summary)])

/-- All that is in a knowledge base. -/
def overview (kb : KnowledgeBase) : String :=
  let line (s : String) : String := s ++ "\n"
  let part (isEmpty : Bool) (table : String) : String :=
    if isEmpty then "" else line table
  let counts :=
    s!"{kb.rules.length} rules, {kb.questions.length} questions, " ++
      s!"{kb.goals.length} goals"
  (if kb.title.isEmpty then "" else line kb.title) ++
    (kb.description.map line).getD "" ++ line counts ++ "\n" ++
    part kb.rules.isEmpty (line kb.ruleTable) ++
    part kb.questions.isEmpty (line kb.questionTable) ++
    part kb.goals.isEmpty kb.goalTable

end KnowledgeBase

namespace Conclusion

/-- A conclusion as a row of a table. -/
def row (c : Conclusion) : List String :=
  [if c.description.isEmpty then c.goal
    else c.description, c.value.getD "?", c.answer.getD ""]

/-- The table of the conclusions. -/
def table (cs : List Conclusion) : String :=
  if cs.isEmpty then "No goals to determine\n"
  else Report.table ["Goal", "Value", "Answer"] (cs.map row) ++ "\n"

end Conclusion

end Consult
