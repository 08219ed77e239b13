import Consult.Placeholder
import Consult.Proofs.Chain
import Mathlib.Data.List.TakeWhile

/-!
# Texts are filled in in a single pass

`Facts.fillInWith` reads a text once, with a count of the characters that
belong to the placeholder just read.  Here it is compared with two
descriptions that read nothing.

`Split` says how a text falls into pieces: a dollar sign begins a placeholder
exactly if an identifier may begin behind it, and the name of the placeholder goes
as far as it can.  A text has one such split, and neither the facts nor what is
filled in have a part in it.

`Replaced` says what it means to replace all matches of the pattern `$name`, as tools
for regular expressions do: look for the match that begins first, and of those that
begin there for the longest; put something in its place; and go on behind it, so that
what was put in is never looked at.

## Main results

* `split_iff` — a text has one split, which is the one that is read.
* `replaced_iff` — to fill in a text is to replace the first and longest matches.
* `Piece.filled_of_extends` — what becomes of a placeholder is final once it has a
  value.
* `filled_in_single_pass` — all of this for `Facts.fillInWith`.
-/

namespace Consult

/-! ## How a text falls into pieces -/

/-- An ASCII letter or underscore, and then any ASCII letters, digits and
underscores. -/
def IsIdentifier (name : List Char) : Prop :=
  ∃ c cs, name = c :: cs ∧ isIdentifierStart c = true ∧
    ∀ d ∈ cs, isIdentifierRest d = true

/-- `Split cs ps`: the characters fall into these pieces.  A plain dollar sign has no
identifier behind it, and behind a placeholder its name does not go on. -/
inductive Split : List Char → List Piece → Prop where
  | nil : Split [] []
  | plain {c : Char} {cs : List Char} {ps : List Piece}
      (hplain : c = '$' → ∀ d ∈ cs.head?, isIdentifierStart d = false)
        (hrest : Split cs ps) :
      Split (c :: cs) (.plain c :: ps)
  | placeholder {name rest : List Char} {ps : List Piece} (hname : IsIdentifier name)
      (hends : ∀ d ∈ rest.head?, isIdentifierRest d = false) (hrest : Split rest ps) :
      Split ('$' :: (name ++ rest)) (.placeholder name :: ps)

theorem isIdentifierRest_of_start {c : Char} (h : isIdentifierStart c = true) :
    isIdentifierRest c = true := by
  simp [isIdentifierRest, h]

theorem IsIdentifier.rest {name : List Char} (h : IsIdentifier name) :
    ∀ c ∈ name, isIdentifierRest c = true := by
  obtain ⟨c, cs, rfl, hstart, hrest⟩ := h
  exact List.forall_mem_cons.2 ⟨isIdentifierRest_of_start hstart, hrest⟩

/-- The first character of an identifier, from a text that begins with it. -/
theorem IsIdentifier.start {name : List Char} (h : IsIdentifier name)
    (rest : List Char) :
    ∃ c ∈ (name ++ rest).head?, isIdentifierStart c = true := by
  obtain ⟨c, cs, rfl, hstart, -⟩ := h
  exact ⟨c, rfl, hstart⟩

theorem identifier_of_not_start {cs : List Char}
    (h : ∀ d ∈ cs.head?, isIdentifierStart d = false) : identifier cs = [] := by
  cases cs with
  | nil => rfl
  | cons c cs =>
      have hc : isIdentifierStart c = false := h c rfl
      simp [identifier, hc]

/-- The identifier that is read goes as far as it can. -/
theorem identifier_append {name rest : List Char} (hname : IsIdentifier name)
    (hends : ∀ d ∈ rest.head?, isIdentifierRest d = false) :
    identifier (name ++ rest) = name := by
  obtain ⟨c, cs, rfl, hstart, hrest⟩ := hname
  have hstop : rest.takeWhile isIdentifierRest = [] := by
    cases rest with
    | nil => rfl
    | cons d ds => simp [hends d rfl]
  rw [List.cons_append, identifier, if_pos hstart, List.takeWhile_append_of_pos hrest,
    hstop, List.append_nil]

/-- What is read is an identifier that does not go on, unless there is none. -/
theorem identifier_cases (cs : List Char) :
    identifier cs = [] ∧ (∀ d ∈ cs.head?, isIdentifierStart d = false) ∨
      IsIdentifier (identifier cs) ∧ ∃ rest, cs = identifier cs ++ rest ∧
        ∀ d ∈ rest.head?, isIdentifierRest d = false := by
  cases cs with
  | nil => exact .inl ⟨rfl, nofun⟩
  | cons c cs =>
      by_cases hstart : isIdentifierStart c = true
      · right
        rw [identifier, if_pos hstart]
        refine ⟨⟨c, _, rfl, hstart, fun d hd => List.mem_takeWhile_imp hd⟩,
          cs.dropWhile isIdentifierRest, ?_, fun d hd => ?_⟩
        · rw [List.cons_append, List.takeWhile_append_dropWhile]
        · have hstop := List.head?_dropWhile_not isIdentifierRest cs
          rwa [Option.mem_def.1 hd] at hstop
      · left
        have hc : isIdentifierStart c = false := Bool.eq_false_iff.2 hstart
        exact ⟨by simp [identifier, hc], by simpa using hc⟩

/-- Characters that are skipped do not count. -/
theorem piecesAfter_eq (skip : Nat) (cs : List Char) :
    piecesAfter skip cs = piecesAfter 0 (cs.drop skip) := by
  induction cs generalizing skip with
  | nil => cases skip <;> rfl
  | cons c cs ih =>
      cases skip with
      | zero => rfl
      | succ skip => exact ih skip

theorem piecesAfter_plain {c : Char} {cs : List Char}
    (hplain : c = '$' → ∀ d ∈ cs.head?, isIdentifierStart d = false) :
    piecesAfter 0 (c :: cs) = .plain c :: piecesAfter 0 cs := by
  rw [piecesAfter]
  split
  · next hc =>
    rw [identifier_of_not_start (hplain hc)]
  · rfl

theorem piecesAfter_placeholder {name rest : List Char} (hname : IsIdentifier name)
    (hends : ∀ d ∈ rest.head?, isIdentifierRest d = false) :
    piecesAfter 0 ('$' :: (name ++ rest)) =
      .placeholder name :: piecesAfter 0 rest := by
  rw [piecesAfter, if_pos rfl, identifier_append hname hends]
  obtain ⟨c, cs, rfl, -, -⟩ := hname
  show Piece.placeholder (c :: cs) :: piecesAfter (c :: cs).length (c :: cs ++ rest) = _
  rw [piecesAfter_eq, List.drop_left]

/-- The pieces that are read are a split. -/
theorem split_piecesAfter (skip : Nat) (cs : List Char) :
    Split (cs.drop skip) (piecesAfter skip cs) := by
  induction cs generalizing skip with
  | nil => cases skip <;> exact .nil
  | cons c cs ih =>
      cases skip with
      | succ skip => exact ih skip
      | zero =>
          rw [List.drop_zero]
          by_cases hc : c = '$'
          · subst hc
            rcases identifier_cases cs with ⟨-, hstart⟩ | ⟨hname, rest, hrest, hends⟩
            · rw [piecesAfter_plain fun _ => hstart]
              exact .plain (fun _ => hstart) (ih 0)
            · have hsplit := ih (identifier cs).length
              generalize identifier cs = name at hname hrest hsplit
              subst hrest
              rw [piecesAfter_eq, List.drop_left] at hsplit
              rw [piecesAfter_placeholder hname hends]
              exact .placeholder hname hends hsplit
          · rw [piecesAfter_plain fun h => absurd h hc]
            exact .plain (fun h => absurd h hc) (ih 0)

/-- A text has one split, which is the one that is read. -/
theorem split_iff {cs : List Char} {ps : List Piece} :
    Split cs ps ↔ ps = piecesAfter 0 cs := by
  constructor
  · intro h
    induction h with
    | nil => rfl
    | plain hplain _ ih => rw [piecesAfter_plain hplain, ih]
    | placeholder hname hends _ ih => rw [piecesAfter_placeholder hname hends, ih]
  · rintro rfl
    exact split_piecesAfter 0 cs

/-! ## Replacing the first and longest match -/

/-- Of all places where `$name` occurs in the text, `before` ends at the first one,
and `name` is the longest that occurs there. -/
structure FirstMatch (cs before name after : List Char) : Prop where
  occurs : cs = before ++ '$' :: (name ++ after)
  identifier : IsIdentifier name
  first : ∀ before' name' after', cs = before' ++ '$' :: (name' ++ after') →
    IsIdentifier name' → before.length ≤ before'.length
  longest : ∀ name' after', name ++ after = name' ++ after' → IsIdentifier name' →
    name'.length ≤ name.length

/-- `Replaced fill cs out`: `out` is the text with `fill name` for each match,
from the first one on. -/
inductive Replaced (fill : List Char → List Char) : List Char → List Char → Prop where
  | done {cs : List Char}
      (hnone : ∀ before name after, cs = before ++ '$' :: (name ++ after) →
        ¬ IsIdentifier name) :
      Replaced fill cs cs
  | next {cs before name after out : List Char}
      (hfirst : FirstMatch cs before name after)
      (hrest : Replaced fill after out) :
        Replaced fill cs (before ++ (fill name ++ out))

/-- What stands for a piece if `fill name` does for a placeholder. -/
def Piece.replaced (fill : List Char → List Char) : Piece → List Char
  | plain c => [c]
  | placeholder name => fill name

/-- No placeholder begins with a character if it is no dollar sign, or if no
identifier begins behind it. -/
theorem forall_not_occurs_iff {c : Char} {cs : List Char} :
    (∀ name after, c :: cs = '$' :: (name ++ after) → ¬ IsIdentifier name) ↔
      (c = '$' → ∀ d ∈ cs.head?, isIdentifierStart d = false) := by
  constructor
  · rintro h rfl d hd
    refine Bool.eq_false_iff.2 fun hstart => ?_
    obtain ⟨ds, rfl⟩ := List.head?_eq_some_iff.1 hd
    exact h [d] ds rfl ⟨d, [], rfl, hstart, by simp⟩
  · rintro h name after hsplit hname
    obtain ⟨rfl, rfl⟩ := List.cons.inj hsplit
    obtain ⟨d, hd, hstart⟩ := hname.start after
    exact Bool.false_ne_true ((h rfl d hd).symm.trans hstart)

namespace FirstMatch

variable {c : Char} {cs before name after : List Char}

/-- A placeholder in front is the first match, with its whole name. -/
theorem here (hname : IsIdentifier name)
    (hends : ∀ d ∈ after.head?, isIdentifierRest d = false) :
    FirstMatch ('$' :: (name ++ after)) [] name after where
  occurs := rfl
  identifier := hname
  first := fun _ _ _ _ _ => Nat.zero_le _
  longest := by
    intro name' after' hsplit hname'
    rcases List.append_eq_append_iff.1 hsplit with ⟨more, rfl, hafter⟩ | ⟨more, rfl, -⟩
    · cases more with
      | nil => simp
      | cons d more =>
          -- The longer name would go on with a character that none can have.
          have hd : isIdentifierRest d = false := hends d (by rw [hafter]; rfl)
          have hd' := hname'.rest d (List.mem_append_right name List.mem_cons_self)
          exact absurd (hd.symm.trans hd') Bool.false_ne_true
    · rw [List.length_append]
      omega

/-- The first match stays the first one behind a character that begins no
placeholder. -/
theorem cons (h : FirstMatch cs before name after)
    (hplain : c = '$' → ∀ d ∈ cs.head?, isIdentifierStart d = false) :
    FirstMatch (c :: cs) (c :: before) name after where
  occurs := congrArg (c :: ·) h.occurs
  identifier := h.identifier
  first := by
    intro before' name' after' hsplit hname'
    cases before' with
    | nil => exact absurd hname' (forall_not_occurs_iff.2 hplain name' after' hsplit)
    | cons c' before' =>
        have hlength := h.first before' name' after' (List.cons.inj hsplit).2 hname'
        simpa using hlength
  longest := h.longest

/-- No placeholder begins before the first match. -/
theorem plain (h : FirstMatch (c :: cs) (c :: before) name after) :
    c = '$' → ∀ d ∈ cs.head?, isIdentifierStart d = false :=
  forall_not_occurs_iff.1 fun name' after' hsplit hname' =>
    absurd (h.first [] name' after' hsplit hname') (Nat.not_succ_le_zero _)

theorem tail (h : FirstMatch (c :: cs) (c :: before) name after) :
    FirstMatch cs before name after where
  occurs := (List.cons.inj h.occurs).2
  identifier := h.identifier
  first := by
    intro before' name' after' hsplit hname'
    have hlength :=
      h.first (c :: before') name' after' (congrArg (c :: ·) hsplit) hname'
    simpa using hlength
  longest := h.longest

/-- The name of the first match does not go on behind it. -/
theorem ends (h : FirstMatch cs before name after) :
    ∀ d ∈ after.head?, isIdentifierRest d = false := by
  intro d hd
  refine Bool.eq_false_iff.2 fun hrest => ?_
  obtain ⟨ds, rfl⟩ := List.head?_eq_some_iff.1 hd
  obtain ⟨e, es, rfl, hstart, hes⟩ := h.identifier
  have hlonger : IsIdentifier (e :: (es ++ [d])) :=
    ⟨e, es ++ [d], rfl, hstart, by
      intro c hc
      rcases List.mem_append.1 hc with hc | hc
      · exact hes c hc
      · exact List.mem_singleton.1 hc ▸ hrest⟩
  have hlength := h.longest (e :: (es ++ [d])) ds (by simp) hlonger
  simp only [List.length_cons, List.length_append, List.length_nil] at hlength
  omega

/-- Up to the first match a text is plain. -/
theorem split (h : FirstMatch cs before name after) {ps : List Piece}
    (hafter : Split after ps) :
    Split cs (before.map .plain ++ .placeholder name :: ps) := by
  induction before generalizing cs with
  | nil =>
      rw [h.occurs]
      exact .placeholder h.identifier h.ends hafter
  | cons c before ih =>
      obtain rfl : cs = c :: (before ++ '$' :: (name ++ after)) := h.occurs
      exact .plain h.plain (ih h.tail)

end FirstMatch

/-- A text without a match is plain. -/
theorem split_of_forall_not_occurs {cs : List Char}
    (h : ∀ before name after, cs = before ++ '$' :: (name ++ after) →
      ¬ IsIdentifier name) :
    Split cs (cs.map .plain) := by
  induction cs with
  | nil => exact .nil
  | cons c cs ih =>
      refine .plain (forall_not_occurs_iff.1 fun name after => h [] name after) (ih ?_)
      intro before name after hsplit
      exact h (c :: before) name after (congrArg (c :: ·) hsplit)

theorem flatMap_replaced_map_plain (fill : List Char → List Char) (cs : List Char) :
    (cs.map Piece.plain).flatMap (·.replaced fill) = cs := by
  induction cs with
  | nil => rfl
  | cons c cs ih => exact congrArg (c :: ·) ih

/-- Replacing the matches is putting something in the place of each
placeholder of a split. -/
theorem Replaced.exists_split {fill : List Char → List Char} {cs out : List Char}
    (h : Replaced fill cs out) :
    ∃ ps, Split cs ps ∧ out = ps.flatMap (·.replaced fill) := by
  induction h with
  | done hnone =>
      exact ⟨_, split_of_forall_not_occurs hnone,
        (flatMap_replaced_map_plain fill _).symm⟩
  | next hfirst _ ih =>
      obtain ⟨ps, hafter, rfl⟩ := ih
      refine ⟨_, hfirst.split hafter, ?_⟩
      rw [List.flatMap_append, flatMap_replaced_map_plain, List.flatMap_cons]
      rfl

theorem Split.replaced {fill : List Char → List Char} {cs : List Char} {ps : List Piece}
    (h : Split cs ps) : Replaced fill cs (ps.flatMap (·.replaced fill)) := by
  induction h with
  | nil => exact .done fun before name after h => by simp at h
  | @plain c cs ps hplain _ ih =>
      show Replaced fill (c :: cs) (c :: ps.flatMap (·.replaced fill))
      generalize ps.flatMap (·.replaced fill) = out at ih
      cases ih with
      | done hnone =>
          refine .done fun before name after hsplit => ?_
          cases before with
          | nil => exact forall_not_occurs_iff.2 hplain name after hsplit
          | cons d before => exact hnone before name after (List.cons.inj hsplit).2
      | next hfirst hrest => exact .next (hfirst.cons hplain) hrest
  | placeholder hname hends _ ih => exact .next (.here hname hends) ih

/-- To replace the first and longest matches is to put something in the place of each
placeholder that is read. -/
theorem replaced_iff {fill : List Char → List Char} {cs out : List Char} :
    Replaced fill cs out ↔ out = (piecesAfter 0 cs).flatMap (·.replaced fill) := by
  constructor
  · intro h
    obtain ⟨ps, hsplit, rfl⟩ := h.exists_split
    rw [split_iff.1 hsplit]
  · rintro rfl
    exact (split_piecesAfter 0 cs).replaced

/-! ## Filling in -/

namespace Piece

variable {facts facts' : Facts} {format : String → String}

/-- What stands for a placeholder that has a value. -/
theorem filled_of_lookup {name : List Char} {value : String}
    (h : facts.lookup (.ofList name) = .ok (some value)) :
    (placeholder name).filled facts format = (format value).toList := by
  simp only [filled, h]

/-- A placeholder that has no value stays as it is. -/
theorem filled_of_forall_ne {name : List Char}
    (h : ∀ value, facts.lookup (.ofList name) ≠ .ok (some value)) :
    (placeholder name).filled facts format = '$' :: name := by
  simp only [filled]

/-- What becomes of a piece changes with more facts only if it is a
placeholder without a value. -/
theorem filled_of_extends (hmore : facts'.Extends facts) {p : Piece}
    (hchange : p.filled facts' format ≠ p.filled facts format) :
    ∃ name, p = placeholder name ∧
      ∀ value, facts.lookup (.ofList name) ≠ .ok (some value) := by
  cases p with
  | plain c => exact absurd rfl hchange
  | placeholder name =>
      refine ⟨name, rfl, fun value hvalue => hchange ?_⟩
      rw [filled_of_lookup hvalue, filled_of_lookup (hmore.lookup_some hvalue)]

theorem filled_eq_replaced (p : Piece) : p.filled facts format =
    p.replaced fun name => (placeholder name).filled facts format := by
  cases p <;> rfl

end Piece

theorem Facts.toList_fillInWith (facts : Facts) (format : String → String)
    (text : String) :
    (facts.fillInWith format text).toList =
      (pieces text).flatMap (·.filled facts format) := by
  rw [fillInWith, String.toList_ofList]

/-- A text has one split into pieces, whatever the facts are and whatever is filled
in.  It is filled in by putting side by side what stands for its pieces: a character
for itself, for a placeholder the value of its fact, or the placeholder as it is if
there is no value.  This replaces the first and longest match of the pattern, then the
next one behind it, and so on.  With more facts only the placeholders that had no
value may come out differently. -/
theorem filled_in_single_pass (text : String) :
    (∀ ps, Split text.toList ps ↔ ps = pieces text) ∧
      ∀ (facts : Facts) (format : String → String),
        (facts.fillInWith format text).toList =
          (pieces text).flatMap (·.filled facts format) ∧
        (∀ name value, facts.lookup (.ofList name) = .ok (some value) →
          (Piece.placeholder name).filled facts format = (format value).toList) ∧
        (∀ name, (∀ value, facts.lookup (.ofList name) ≠ .ok (some value)) →
          (Piece.placeholder name).filled facts format = '$' :: name) ∧
        (∀ out,
          Replaced (fun name => (Piece.placeholder name).filled facts format)
              text.toList out ↔
          out = (facts.fillInWith format text).toList) ∧
        ∀ facts' : Facts, facts'.Extends facts → ∀ p ∈ pieces text,
          p.filled facts' format ≠ p.filled facts format →
            ∃ name, p = .placeholder name ∧
              ∀ value, facts.lookup (.ofList name) ≠ .ok (some value) := by
  refine ⟨fun ps => split_iff,
    fun facts format => ⟨facts.toList_fillInWith format text, ?value,
    ?stays, fun out => ?replaced, fun facts' hmore p _ =>
      Piece.filled_of_extends hmore⟩⟩
  case value => exact fun name value => Piece.filled_of_lookup
  case stays => exact fun name => Piece.filled_of_forall_ne
  case replaced =>
    rw [replaced_iff, facts.toList_fillInWith, ← funext Piece.filled_eq_replaced]
    rfl

/-- What is known of a visitor.  The greeting mentions the name, and
nobody knows of a dog. -/
def visitorFacts : Facts :=
  .ofList [("name", ⟨"Ada", .given "Given"⟩), ("who", ⟨"$name", .given "Given"⟩),
    ("greeting", ⟨"Hi $name", .given "Given"⟩)]

/-- What is known of the visitor and the dog. -/
def visitorFactsWithDog : Facts := visitorFacts.insert "dog" ⟨"Rex", .given "Given"⟩

theorem extends_visitorFactsWithDog : visitorFactsWithDog.Extends visitorFacts :=
  Facts.extends_insert _ (by decide +kernel)

/-- The name in the greeting is not filled in, nor is the price a placeholder; the dog
comes with its name once this is known. -/
theorem greeting_filled_in :
    visitorFacts.fillIn "$$greeting$whoé $5 $dog" = "$Hi $nameAdaé $5 $dog" ∧
      visitorFactsWithDog.Extends visitorFacts ∧
      (Piece.placeholder "dog".toList).filled visitorFactsWithDog id ≠
        (Piece.placeholder "dog".toList).filled visitorFacts id ∧
      (∀ value, visitorFacts.lookup "dog" ≠ .ok (some value)) ∧
      visitorFactsWithDog.fillIn "$$greeting$whoé $5 $dog" =
        "$Hi $nameAdaé $5 Rex" := by
  obtain ⟨-, hfilled⟩ := filled_in_single_pass "$$greeting$whoé $5 $dog"
  obtain ⟨hbefore, -, -, -, hmore⟩ := hfilled visitorFacts id
  obtain ⟨hafter, -⟩ := hfilled visitorFactsWithDog id
  have hchange : (Piece.placeholder "dog".toList).filled visitorFactsWithDog id ≠
      (Piece.placeholder "dog".toList).filled visitorFacts id := by decide +kernel
  obtain ⟨name, hname, hnone⟩ := hmore visitorFactsWithDog extends_visitorFactsWithDog
    (.placeholder "dog".toList) (by decide +kernel) hchange
  obtain rfl := Piece.placeholder.inj hname
  rw [String.ofList_toList] at hnone
  refine ⟨?_, extends_visitorFactsWithDog, hchange, hnone, ?_⟩
  · exact String.toList_inj.1 (hbefore.trans (by decide +kernel))
  · exact String.toList_inj.1 (hafter.trans (by decide +kernel))

end Consult
