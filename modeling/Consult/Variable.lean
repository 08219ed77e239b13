/-!
# Variables

A text of the form `$name`, with at least one character behind the dollar sign,
is a variable: it stands for whatever value the fact `name` has. Every other
text is a literal and stands for itself.
-/

namespace Consult

/-- The fact that a variable refers to; a literal refers to none. -/
def target? (text : String) : Option String :=
  match text.toList with
  | '$' :: c :: cs => some (.ofList (c :: cs))
  | _ => none

/-- Whether the text is a variable. -/
def isVariable (text : String) : Bool := (target? text).isSome

theorem target?_eq_none {text : String} (h : isVariable text = false) :
    target? text = none := by
  simpa [isVariable] using h

end Consult
