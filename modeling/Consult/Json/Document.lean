import Consult.Json.Token

/-!
# JSON documents

A document is one JSON value with nothing but space around it. `Document.parse`
takes any text: it builds the value from the tokens and marks the place where
the text stops being JSON. The containers that are open at a token are kept in a
list of frames, so nesting costs no depth of recursion.
-/

namespace Consult.Json

/-- An open container with what it holds so far, last first. -/
inductive Frame where
  /-- An array. -/
  | items (done : List Json)
  /-- An object whose last member is complete. -/
  | members (done : List (Option String × Json))
  /-- An object in which the value under `key` is still to come. -/
  | value (done : List (Option String × Json)) (key : Option String)

/-- What may come next. -/
inductive Phase where
  /-- A value. -/
  | value
  /-- A value or the end of the array. -/
  | firstItem
  /-- A key. -/
  | key
  /-- A key or the end of the object. -/
  | firstKey
  /-- The colon behind a key. -/
  | colon
  /-- A comma or the end of the container. -/
  | next

/-- A text read as a document. -/
structure Document where
  root : Json
  /-- Whether the text ends behind the value. -/
  complete : Bool

/-- The value of a text that stops being JSON inside the open
containers, the innermost first. -/
def stopAt (inner : Json) : List Frame → Json
  | [] => inner
  | .items done :: frames => stopAt (.array (done.reverse ++ [inner])) frames
  | .members done :: frames => stopAt (.object (done.reverse ++ [(none, inner)])) frames
  | .value done key :: frames =>
      stopAt (.object (done.reverse ++ [(key, inner)])) frames

/-- The document of a text that stops being JSON inside the open containers. -/
def stop (frames : List Frame) : Document := ⟨stopAt .broken frames, true⟩

/-- The innermost open container with one more value, and what may come next. -/
def deliver (value : Json) : Frame → Frame × Phase
  | .items done => (.items (value :: done), .next)
  | .members done => (.members done, .next)
  | .value done key => (.members ((key, value) :: done), .next)

/-- Reads on, given the open containers and what may come next. -/
def assemble : List Token → List Frame → Phase → Document
  | [], frames, _ => stop frames
  | token :: rest, frames, phase =>
    /- Goes on behind a complete value. -/
    let complete (value : Json) (outer : List Frame) : Document :=
      match outer with
      | [] => ⟨value, rest.isEmpty⟩
      | frame :: outer =>
        let (frame, phase) := deliver value frame
        assemble rest (frame :: outer) phase
    match phase, token, frames with
    | .value, .scalar value, frames => complete value frames
    | .firstItem, .scalar value, frames => complete value frames
    | .value, .openArray, frames => assemble rest (.items [] :: frames) .firstItem
    | .firstItem, .openArray, frames => assemble rest (.items [] :: frames) .firstItem
    | .value, .openObject, frames => assemble rest (.members [] :: frames) .firstKey
    | .firstItem, .openObject, frames => assemble rest (.members [] :: frames) .firstKey
    | .firstItem, .closeArray, .items done :: outer =>
        complete (.array done.reverse) outer
    | .next, .closeArray, .items done :: outer => complete (.array done.reverse) outer
    | .next, .comma, .items done :: outer => assemble rest (.items done :: outer) .value
    | .next, .comma, .members done :: outer =>
        assemble rest (.members done :: outer) .key
    | .firstKey, .closeObject, .members done :: outer =>
        complete (.object done.reverse) outer
    | .next, .closeObject, .members done :: outer =>
        complete (.object done.reverse) outer
    | .key, .scalar (.string key), .members done :: outer =>
      assemble rest (.value done key :: outer) .colon
    | .firstKey, .scalar (.string key), .members done :: outer =>
      assemble rest (.value done key :: outer) .colon
    | .colon, .colon, frames => assemble rest frames .value
    | _, _, frames => stop frames

/-- Reads a text as a document. -/
def Document.parse (text : String) : Document := assemble (tokens text.toList) [] .value

end Consult.Json
