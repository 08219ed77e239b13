import Consult.Facts

/-!
# Placeholders in text

A placeholder is a dollar sign with an identifier behind it: an ASCII letter or
underscore, then as many ASCII letters, digits and underscores as follow. Filling
in a text replaces each placeholder by the value of its fact, in one pass; a
placeholder without a value stays as it is.

## Main results

* `source_piecesAfter` — the pieces of a text spell the text.
-/

namespace Consult

/-- A part of a text. -/
inductive Piece where
  | plain (c : Char)
  | placeholder (name : List Char)
deriving DecidableEq, Repr

/-- An ASCII letter or an underscore. -/
def isIdentifierStart (c : Char) : Bool :=
  ('A' ≤ c && c ≤ 'Z') || ('a' ≤ c && c ≤ 'z') || c = '_'

/-- An ASCII letter, a digit or an underscore. -/
def isIdentifierRest (c : Char) : Bool := isIdentifierStart c || ('0' ≤ c && c ≤ '9')

/-- The longest identifier at the front of a text, empty if there is none. -/
def identifier : List Char → List Char
  | [] => []
  | c :: cs => if isIdentifierStart c then c :: cs.takeWhile isIdentifierRest else []

/-- The pieces of a text of which the first `skip` characters belong to
a piece already taken. -/
def piecesAfter : (skip : Nat) → List Char → List Piece
  | _, [] => []
  | skip + 1, _ :: cs => piecesAfter skip cs
  | 0, c :: cs =>
    if c = '$' then
      match identifier cs with
      | [] => .plain c :: piecesAfter 0 cs
      | name => .placeholder name :: piecesAfter name.length cs
    else .plain c :: piecesAfter 0 cs

/-- The pieces of a text. -/
def pieces (text : String) : List Piece := piecesAfter 0 text.toList

namespace Piece

/-- The characters that a piece is written with. -/
def source : Piece → List Char
  | plain c => [c]
  | placeholder name => '$' :: name

/-- The characters that stand for a piece once the text is filled in. -/
def filled (facts : Facts) (format : String → String) : Piece → List Char
  | plain c => [c]
  | placeholder name =>
    match facts.lookup (.ofList name) with
    | .ok (some value) => (format value).toList
    | _ => '$' :: name

end Piece

namespace Facts

/-- The text with the value of its fact, put through `format`, for each placeholder. -/
def fillInWith (facts : Facts) (format : String → String) (text : String) : String :=
  .ofList ((pieces text).flatMap (·.filled facts format))

/-- The text with the value of its fact for each placeholder. -/
def fillIn (facts : Facts) (text : String) : String := facts.fillInWith id text

end Facts

theorem take_identifier (cs : List Char) :
    cs.take (identifier cs).length = identifier cs := by
  cases cs with
  | nil => rfl
  | cons c cs =>
    simp only [identifier]
    split
    · simpa using (List.prefix_iff_eq_take.1
        (List.takeWhile_prefix (l := cs) isIdentifierRest)).symm
    · rfl

/-- The pieces of a text spell the text. -/
theorem source_piecesAfter (skip : Nat) (cs : List Char) :
    (piecesAfter skip cs).flatMap Piece.source = cs.drop skip := by
  induction cs generalizing skip with
  | nil => cases skip <;> rfl
  | cons c cs ih =>
    cases skip with
    | succ skip => simpa [piecesAfter] using ih skip
    | zero =>
      simp only [piecesAfter]
      split
      · next hc =>
        split
        · simp [Piece.source, ih]
        · next name _ =>
          have := List.take_append_drop (identifier cs).length cs
          rw [take_identifier] at this
          simp_all [Piece.source]
      · simp [Piece.source, ih]

end Consult
