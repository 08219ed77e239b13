import Consult.Engine
import Consult.Format.Knowledge
import Consult.Report.Explanation
import Consult.Report.Overview

/-!
# The command line

What the program does with its arguments, given a way to read files. `run`
determines the goals of a knowledge base, or the goals that are named, and
`show` lists what a knowledge base holds. There is no prompt: a run that has to
ask a question fails.

## Main results

* `status_execute` — a command succeeds, or reports why it failed.
-/

namespace Consult.Cli

/-! ## Arguments -/

/-- What the program is asked to do. -/
inductive Command where
  | version
  | run (file : String) (goals : List String) (verbose explain : Bool)
  | describe (file : String)
deriving DecidableEq, Repr

/-- Arguments sorted into values and options. -/
structure Sorted where
  values : List String := []
  verbose : Bool := false
  explain : Bool := false

/-- Adds an option that is written with a letter; no option may be repeated. -/
def addLetter? (a : Sorted) (c : Char) : Option Sorted :=
  if c = 'v' && !a.verbose then some { a with verbose := true }
  else if c = 'e' && !a.explain then some { a with explain := true }
  else none

/-- The letter that means the same as a word. -/
def letter? (word : String) : Option Char :=
  if word = "--verbose" then some 'v' else if word = "--explain" then some 'e' else none

/-- Sorts arguments. Options start with a hyphen, which stands for itself if it stands
alone; behind two hyphens everything is a value. -/
def sort? (a : Sorted) : List String → Option Sorted
  | [] => some a
  | arg :: args =>
    match arg.toList with
    | ['-', '-'] => some { a with values := a.values ++ args }
    | '-' :: '-' :: _ => do sort? (← addLetter? a (← letter? arg)) args
    | '-' :: c :: cs => do sort? (← (c :: cs).foldlM addLetter? a) args
    | _ => sort? { a with values := a.values ++ [arg] } args

/-- The command that the arguments spell, if they spell one. A file has a name. -/
def Command.parse? : List String → Option Command
  | [] => none
  | arg :: args =>
    if arg = "--version" || arg.toList.take 2 = ['-', 'V'] then some .version
    else if arg = "run" then
      match sort? {} args with
      | some ⟨file :: goals, verbose, explain⟩ =>
        if file.isEmpty then none else some (.run file goals verbose explain)
      | _ => none
    else if arg = "show" then
      match sort? {} args with
      | some ⟨[file], false, false⟩ =>
          if file.isEmpty then none else some (.describe file)
      | _ => none
    else none

/-! ## Commands -/

/-- The end of a command: the text for the standard output, or what went wrong. -/
abbrev Ending := Except String String

/-- Loads a knowledge base from a file. -/
def load (readFile : String → Except String String) (file : String) :
    Except String KnowledgeBase :=
  match readFile file with
  | .error reason => throw s!"Failed to read {file}: {reason}"
  | .ok text =>
    match KnowledgeBase.parse text with
    | .error fault => throw (s!"Failed to load {file}: " ++ fault.message)
    | .ok kb => return kb

/-- The goals of these names, as they are declared if they are. -/
def select (goals : List Goal) (names : List String) : List Goal :=
  names.map fun name => (goals.find? (·.name = name)).getD { name, description := name }

/-- Says that a question cannot be put to anybody. -/
def cannotAsk (q : Question) : String :=
  if q.options.isEmpty then s!"Question '{q.description}' has no options"
  else s!"Failed to get an answer to '{q.description}': The input device is not a TTY"

/-- The text that a decided consultation ends with. -/
def report (e : Engine) (explain : Bool) (s : Consultation) : Ending :=
  match e.conclusions s with
  | .error fault => throw fault.message
  | .ok conclusions =>
    let reasons := e.knowledge.goals.map fun g => "\n" ++ s.facts.explain g.name
    return Conclusion.table conclusions ++
      (if explain then "".intercalate reasons else "")

/-- Determines goals: what it ends with and the events on the way. -/
def determine (kb : KnowledgeBase) (explain : Bool) : Ending × List Event :=
  match Engine.ofKnowledge? kb {} with
  | .error fault => (throw fault.message, [])
  | .ok e =>
    let r := e.step e.start
    (match r.result with
      | .error fault => throw fault.message
      | .ok (.pending p) => throw (cannotAsk p.question)
      | .ok .decided => report e explain r.state,
    r.trace)

/-- What the program leaves behind. -/
structure Response where
  status : Nat
  stdout : String
  /-- The message on the standard error. -/
  error : Option String
  /-- The events to be logged. -/
  log : List Event
deriving DecidableEq

/-- The name and the version of the program. -/
def versionLine : String := "sage 0.3.0\n"

/-- How the program is called. -/
def usage : String :=
  "Usage: sage run [-v|--verbose] [-e|--explain] <FILE> [GOALS]...\n" ++
    "       sage show <FILE>\n" ++
    "       sage -V|--version\n"

/-- The response for the end of a command. -/
def Response.ofEnding (ending : Ending) (log : List Event) : Response :=
  match ending with
  | .ok text => ⟨0, text, none, log⟩
  | .error message => ⟨1, "", some ("Error: " ++ message), log⟩

/-- Carries out a command. All events are logged if it is verbose, and
otherwise the warnings. -/
def Command.execute (readFile : String → Except String String) : Command → Response
  | version => .ofEnding (.ok versionLine) []
  | describe file => .ofEnding (KnowledgeBase.overview <$> load readFile file) []
  | run file goals verbose explain =>
    match load readFile file with
    | .error message => .ofEnding (.error message) []
    | .ok kb =>
      let kb := if goals.isEmpty then kb else { kb with goals := select kb.goals goals }
      let (ending, trace) := determine kb explain
      .ofEnding ending (if verbose then trace else trace.filter (·.severity = .warning))

/-- Does what the arguments ask for, or says how the program is called. -/
def respond (readFile : String → Except String String) (args : List String) :
    Response :=
  match Command.parse? args with
  | some command => command.execute readFile
  | none => ⟨2, "", some usage, []⟩

/-- A command succeeds, or reports why it failed. -/
theorem status_execute (readFile : String → Except String String) (c : Command) :
    ((c.execute readFile).status = 0 ∧ (c.execute readFile).error = none) ∨
      ((c.execute readFile).status = 1 ∧ (c.execute readFile).stdout = "") := by
  have ofEnding : ∀ (e : Ending) log, ((Response.ofEnding e log).status = 0 ∧
      (Response.ofEnding e log).error = none) ∨
      ((Response.ofEnding e log).status = 1 ∧
        (Response.ofEnding e log).stdout = "") := by
    intro e log
    cases e <;> simp [Response.ofEnding]
  cases c with
  | version => exact ofEnding _ _
  | describe file => exact ofEnding _ _
  | run file goals verbose explain =>
    simp only [Command.execute]
    split <;> exact ofEnding _ _

end Consult.Cli
