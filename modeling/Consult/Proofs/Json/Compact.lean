import Consult.Json.Printer
import Consult.Json.Reading
import Consult.Proofs.Json.Scalar

/-!
# The compact text of a value is that value

What the project writes holds texts and integers of 64 bits only; such a value is
called canonical.  Its compact text scans to the tokens of the value, whatever
comes behind, and these are assembled to the value again, whatever containers are
open.

## Main results

* `tokens_printOnto` — the tokens of a text that begins with a canonical value.
* `assemble_toTokens` — the tokens of a value are assembled to it.
* `parse_compact` — the compact text of a canonical value is a document of it.
* `readDocument_compact` — to read the text is to read the value.
-/

namespace Consult.Json

open Consult.Text (isDigit writeNat writeInt)

/-! ## Canonical values -/

/-- A value whose strings are texts, whose numbers are integers of 64 bits, and of
which nothing is missing. -/
inductive Canonical : Json → Prop where
  | null : Canonical .null
  | bool (value : Bool) : Canonical (.bool value)
  | integer {n : Int} (h : n.natAbs < UInt64.size) : Canonical (.ofInt n)
  | text (s : String) : Canonical (.text s)
  | array {items : List Json} (h : ∀ item ∈ items, Canonical item) :
      Canonical (.array items)
  | object {members : List (Option String × Json)}
      (hkeys : ∀ m ∈ members, m.1.isSome = true)
      (h : ∀ m ∈ members, Canonical m.2) : Canonical (.object members)

@[simp] theorem member_fst (name : String) (value : Json) :
    (member name value).1 = some name :=
  rfl

@[simp] theorem member_snd (name : String) (value : Json) :
    (member name value).2 = value :=
  rfl

attribute [simp] Canonical.text Canonical.bool Canonical.null

@[simp] theorem canonical_array {items : List Json} :
    (array items).Canonical ↔ ∀ item ∈ items, item.Canonical :=
  ⟨fun | .array h => h, .array⟩

@[simp] theorem canonical_object {members : List (Option String × Json)} :
    (object members).Canonical ↔ ∀ m ∈ members, m.1.isSome = true ∧ m.2.Canonical :=
  ⟨fun | .object hkeys h => fun m hm => ⟨hkeys m hm, h m hm⟩,
    fun h => .object (fun m hm => (h m hm).1) fun m hm => (h m hm).2⟩

theorem canonical_ofNat {n : Nat} (h : n < UInt64.size) : (ofNat n).Canonical := by
  rw [ofNat_eq_ofInt]
  exact .integer (by simpa using h)

@[simp] theorem canonical_ofInt32 (n : Int32) : (ofInt n.toInt).Canonical := by
  have hle : n.toInt ≤ 2147483647 := n.toInt_le
  have hge : -2147483648 ≤ n.toInt := n.le_toInt
  have hsize : UInt64.size = 18446744073709551616 := rfl
  refine .integer ?_
  omega

mutual

/-- The tokens of a value. -/
def toTokens : Json → List Token
  | .array items => .openArray :: (itemTokens true items ++ [.closeArray])
  | .object members => .openObject :: (memberTokens true members ++ [.closeObject])
  | j => [.scalar j]
termination_by structural j => j

/-- The tokens of items with commas between them, and one in front
unless they come first. -/
def itemTokens (first : Bool) : List Json → List Token
  | [] => []
  | item :: items =>
    let tail := item.toTokens ++ itemTokens false items
    if first then tail else .comma :: tail
termination_by structural items => items

/-- The tokens of members with commas between them, and one in front
unless they come first. -/
def memberTokens (first : Bool) : List (Option String × Json) → List Token
  | [] => []
  | (key, value) :: members =>
    let tail :=
      .scalar (.string key) :: .colon :: (value.toTokens ++ memberTokens false members)
    if first then tail else .comma :: tail
termination_by structural members => members

end

/-! ## Scanning -/

/-- What comes next does not go on with a number. -/
def Delimits (rest : List Char) : Prop :=
  ∀ c cs, rest = c :: cs → isNumberChar c = false

theorem delimits_nil : Delimits [] := nofun

theorem delimits_cons {c : Char} (h : isNumberChar c = false) (cs : List Char) :
    Delimits (c :: cs) := by
  rintro c' cs' heq
  cases heq
  exact h

/-- A token in front of a text, if it is one and no space comes first. -/
theorem tokens_cons {c : Char} {cs : List Char} {value : Json} {n : Nat}
    (hspace : isSpace c = false) (h : tokenAt c cs = (.scalar value, n)) :
    tokens (c :: cs) = .scalar value :: tokens (cs.drop n) := by
  have hstep : tokens (c :: cs) = .scalar value :: tokensAfter n cs := by
    unfold tokens
    rw [tokensAfter]
    simp [hspace, h]
  rw [hstep, tokensAfter_eq_drop]

theorem tokens_printText (s : String) (rest : List Char) :
    tokens (printText s rest) = .scalar (.text s) :: tokens rest := by
  have htoken : tokenAt '\x22' (escape s.toList ++ '\x22' :: rest) =
      (.scalar (.text s), (escape s.toList).length + 1) := by
    have hbody := body?_escape s.toList rest
    simp [tokenAt, hbody, decodeText?_codes, text]
  have hrest : (escape s.toList ++ '\x22' :: rest).drop
      ((escape s.toList).length + 1) = rest := by
    rw [List.drop_append]
    simp
  have hscan := tokens_cons (by decide) htoken
  rwa [hrest] at hscan

/-- The characters that may begin an integer begin nothing else. -/
theorem ne_of_begins {c : Char} (h : isDigit c = true ∨ c = '-') {d : Char}
    (hd : isDigit d = false ∧ d ≠ '-') : c ≠ d := by
  rintro rfl
  rcases h with h | h
  · simp [hd.1] at h
  · exact hd.2 h

/-- An integer is scanned up to the first character that cannot stand in a number. -/
theorem tokens_number {c : Char} {cs rest : List Char}
    (hfirst : isDigit c = true ∨ c = '-') (hchars : ∀ d ∈ cs, isNumberChar d = true)
    (hnumber : (spelling? (c :: cs)).isSome = true) (hrest : Delimits rest) :
    tokens (c :: cs ++ rest) = .scalar (.number (.ofList (c :: cs))) ::
      tokens rest := by
  have hne {d : Char} (hd : isDigit d = false ∧ d ≠ '-') : c ≠ d :=
    ne_of_begins hfirst hd
  have htail : (cs ++ rest).takeWhile isNumberChar = cs := by
    rw [List.takeWhile_append_of_pos hchars]
    cases rest with
    | nil => simp
    | cons d ds => simp [hrest d ds rfl]
  have htoken : tokenAt c (cs ++ rest) =
      (.scalar (.number (.ofList (c :: cs))), cs.length) := by
    unfold tokenAt
    rw [if_neg (hne (by decide)), if_neg (hne (by decide)), if_neg (hne (by decide)),
      if_neg (hne (by decide)), if_neg (hne (by decide)), if_neg (hne (by decide)),
      if_neg (hne (by decide))]
    have hn : c ≠ 'n' := hne (by decide)
    have ht : c ≠ 't' := hne (by decide)
    have hf : c ≠ 'f' := hne (by decide)
    simp [hn, ht, hf, htail, hnumber]
  have hspace : isSpace c = false := by
    have hblank : c ≠ ' ' ∧ c ≠ '\t' ∧ c ≠ '\n' ∧ c ≠ '\r' :=
      ⟨hne (by decide), hne (by decide), hne (by decide), hne (by decide)⟩
    simp [isSpace, hblank]
  have hscan := tokens_cons hspace htoken
  simpa using hscan

theorem tokens_integer (n : Int) {rest : List Char} (hrest : Delimits rest) :
    tokens ((writeInt n).toList ++ rest) = .scalar (.ofInt n) :: tokens rest := by
  have hnumber : (spelling? (writeInt n).toList).isSome = true := by
    rw [spelling?_writeInt]
    rfl
  have hchars : ∀ c ∈ (writeInt n).toList, isNumberChar c = true := fun c hc =>
    isNumberChar_of_mem_writeInt hc
  have hbegins : ∃ c cs, (writeInt n).toList = c :: cs ∧
      (isDigit c = true ∨ c = '-') := by
    rw [toList_writeInt]
    split
    · exact ⟨_, _, rfl, .inr rfl⟩
    · cases hdigits : (writeNat n.natAbs).toList with
      | nil => exact absurd hdigits (writeNat_ne_nil _)
      | cons c cs =>
          have hmem : c ∈ (writeNat n.natAbs).toList := hdigits ▸ List.mem_cons_self
          exact ⟨c, cs, rfl, .inl (isDigit_of_mem_writeNat hmem)⟩
  obtain ⟨c, cs, heq, hfirst⟩ := hbegins
  have hself : String.ofList (c :: cs) = writeInt n := by
    rw [← heq, String.ofList_toList]
  rw [heq] at hnumber hchars ⊢
  rw [tokens_number hfirst (fun d hd => hchars d (List.mem_cons_of_mem _ hd)) hnumber
    hrest, hself]
  rfl

/-- The text of the value scans to its tokens, and on from there. -/
def Scans (j : Json) : Prop :=
  ∀ rest, Delimits rest → tokens (j.printOnto rest) = j.toTokens ++ tokens rest

theorem delimits_printItems (items : List Json) (rest : List Char) :
    Delimits (printItems false items (']' :: rest)) := by
  cases items with
  | nil => exact delimits_cons (by decide) _
  | cons _ _ => exact delimits_cons (by decide) _

theorem delimits_printMembers (members : List (Option String × Json))
    (rest : List Char) :
    Delimits (printMembers false members ('\x7d' :: rest)) := by
  cases members with
  | nil => exact delimits_cons (by decide) _
  | cons _ _ => exact delimits_cons (by decide) _

theorem tokens_printItems {items : List Json} (h : ∀ item ∈ items, item.Scans) :
    ∀ (first : Bool) (rest : List Char), tokens (printItems first items (']' :: rest)) =
      itemTokens first items ++ .closeArray :: tokens rest := by
  induction items with
  | nil =>
      intro first rest
      rfl
  | cons item items ih =>
      intro first rest
      have hhead := h item List.mem_cons_self _ (delimits_printItems items rest)
      have htail := ih (fun i hi => h i (List.mem_cons_of_mem _ hi)) false rest
      have hscan : tokens (item.printOnto (printItems false items (']' :: rest))) =
          item.toTokens ++ itemTokens false items ++ .closeArray :: tokens rest := by
        rw [hhead, htail, List.append_assoc]
      cases first with
      | true => exact hscan
      | false => exact congrArg (Token.comma :: ·) hscan

theorem tokens_printMembers {members : List (Option String × Json)}
    (hkeys : ∀ m ∈ members, m.1.isSome = true) (h : ∀ m ∈ members, m.2.Scans) :
    ∀ (first : Bool) (rest : List Char),
      tokens (printMembers first members ('\x7d' :: rest)) =
        memberTokens first members ++ .closeObject :: tokens rest := by
  induction members with
  | nil =>
      intro first rest
      rfl
  | cons m members ih =>
      intro first rest
      obtain ⟨key, value⟩ := m
      obtain ⟨key, rfl⟩ := Option.isSome_iff_exists.1 (hkeys _ List.mem_cons_self)
      have hhead := h _ List.mem_cons_self _ (delimits_printMembers members rest)
      have htail := ih (fun m hm => hkeys m (List.mem_cons_of_mem _ hm))
        (fun m hm => h m (List.mem_cons_of_mem _ hm)) false rest
      have hvalue :
          tokens (value.printOnto (printMembers false members ('\x7d' :: rest))) =
          value.toTokens ++ memberTokens false members ++ .closeObject ::
          tokens rest := by
        rw [hhead, htail, List.append_assoc]
      have hscan : tokens (printText key
          (':' :: value.printOnto (printMembers false members ('\x7d' :: rest)))) =
          .scalar (.text key) :: .colon ::
            (value.toTokens ++ memberTokens false members ++ .closeObject ::
              tokens rest) := by
        rw [tokens_printText]
        exact congrArg (Token.scalar (.text key) :: Token.colon :: ·) hvalue
      cases first with
      | true => exact hscan
      | false => exact congrArg (Token.comma :: ·) hscan

/-- The text of a canonical value scans to its tokens, and on from there. -/
theorem tokens_printOnto {j : Json} (h : j.Canonical) : j.Scans := by
  induction h with
  | null => exact fun rest _ => rfl
  | bool value =>
      intro rest _
      cases value <;> rfl
  | @integer n _ => exact fun rest hrest => tokens_integer n hrest
  | text s => exact fun rest _ => tokens_printText s rest
  | @array items _ ih =>
      intro rest _
      have hbody := congrArg (Token.openArray :: ·) (tokens_printItems ih true rest)
      rw [toTokens, List.cons_append, List.append_assoc]
      exact hbody
  | @object members hkeys _ ih =>
      intro rest _
      have hbody :=
        congrArg (Token.openObject :: ·) (tokens_printMembers hkeys ih true rest)
      rw [toTokens, List.cons_append, List.append_assoc]
      exact hbody

/-! ## Assembling -/

/-- Goes on behind a complete value. -/
def goOn (value : Json) (rest : List Token) : List Frame → Document
  | [] => ⟨value, rest.isEmpty⟩
  | frame :: outer =>
      assemble rest ((deliver value frame).1 :: outer) (deliver value frame).2

/-- A value may come next. -/
def Phase.TakesValue (phase : Phase) : Prop := phase = .value ∨ phase = .firstItem

/-- The tokens of the value are assembled to it, whatever is open and comes behind. -/
def Assembles (j : Json) : Prop :=
  ∀ (rest : List Token) (frames : List Frame) (phase : Phase), phase.TakesValue →
    assemble (j.toTokens ++ rest) frames phase = goOn j rest frames

theorem assemble_scalar (value : Json) (rest : List Token) (frames : List Frame)
    {phase : Phase} (h : phase.TakesValue) :
    assemble (.scalar value :: rest) frames phase = goOn value rest frames := by
  rcases h with rfl | rfl <;> cases frames <;> rfl

theorem assemble_itemTokens {items : List Json} (h : ∀ item ∈ items, item.Assembles)
    (rest : List Token) (outer : List Frame) :
    (∀ done, assemble (itemTokens true items ++ .closeArray :: rest)
      (.items done :: outer) .firstItem =
      goOn (.array (done.reverse ++ items)) rest outer) ∧
    ∀ done, assemble (itemTokens false items ++ .closeArray :: rest)
      (.items done :: outer) .next =
      goOn (.array (done.reverse ++ items)) rest outer := by
  induction items with
  | nil =>
      constructor
      · intro done
        rw [List.append_nil]
        cases outer <;> rfl
      · intro done
        rw [List.append_nil]
        cases outer <;> rfl
  | cons item items ih =>
      have hrest := (ih fun i hi => h i (List.mem_cons_of_mem _ hi)).2
      have hitem (phase : Phase) (hphase : phase.TakesValue) (done : List Json) :
          assemble (item.toTokens ++ itemTokens false items ++ .closeArray :: rest)
              (.items done :: outer) phase =
            goOn (.array (done.reverse ++ item :: items)) rest outer := by
        rw [List.append_assoc, h item List.mem_cons_self _ _ _ hphase]
        show assemble (itemTokens false items ++ .closeArray :: rest)
          (.items (item :: done) :: outer) .next = _
        rw [hrest (item :: done), List.reverse_cons, List.append_assoc]
        rfl
      exact ⟨hitem .firstItem (.inr rfl), hitem .value (.inl rfl)⟩

theorem assemble_memberTokens {members : List (Option String × Json)}
    (h : ∀ m ∈ members, m.2.Assembles) (rest : List Token) (outer : List Frame) :
    (∀ done, assemble (memberTokens true members ++ .closeObject :: rest)
        (.members done :: outer) .firstKey =
      goOn (.object (done.reverse ++ members)) rest outer) ∧
    ∀ done, assemble (memberTokens false members ++ .closeObject :: rest)
        (.members done :: outer) .next =
      goOn (.object (done.reverse ++ members)) rest outer := by
  induction members with
  | nil =>
      constructor
      · intro done
        rw [List.append_nil]
        cases outer <;> rfl
      · intro done
        rw [List.append_nil]
        cases outer <;> rfl
  | cons m members ih =>
      obtain ⟨key, value⟩ := m
      have hrest := (ih fun m hm => h m (List.mem_cons_of_mem _ hm)).2
      have hvalue (done : List (Option String × Json)) :
          assemble (value.toTokens ++ memberTokens false members ++
            .closeObject :: rest)
              (.value done key :: outer) .value =
            goOn (.object (done.reverse ++ (key, value) :: members)) rest outer := by
        rw [List.append_assoc, h _ List.mem_cons_self _ _ _ (.inl rfl)]
        show assemble (memberTokens false members ++ .closeObject :: rest)
          (.members ((key, value) :: done) :: outer) .next = _
        rw [hrest ((key, value) :: done), List.reverse_cons, List.append_assoc]
        rfl
      exact ⟨hvalue, hvalue⟩

/-- The tokens of a canonical value are assembled to it. -/
theorem assemble_toTokens {j : Json} (h : j.Canonical) : j.Assembles := by
  induction h with
  | null => exact fun rest frames _ => assemble_scalar _ rest frames
  | bool value => exact fun rest frames _ => assemble_scalar _ rest frames
  | integer _ => exact fun rest frames _ => assemble_scalar _ rest frames
  | text s => exact fun rest frames _ => assemble_scalar _ rest frames
  | @array items _ ih =>
      intro rest frames phase hphase
      have hitems := (assemble_itemTokens ih rest frames).1 []
      rw [toTokens, List.cons_append, List.append_assoc]
      rcases hphase with rfl | rfl <;> exact hitems
  | @object members _ _ ih =>
      intro rest frames phase hphase
      have hmembers := (assemble_memberTokens ih rest frames).1 []
      rw [toTokens, List.cons_append, List.append_assoc]
      rcases hphase with rfl | rfl <;> exact hmembers

/-! ## Documents -/

/-- The compact text of a canonical value is a document of it. -/
theorem parse_compact {j : Json} (h : j.Canonical) :
    Document.parse j.compact = ⟨j, true⟩ := by
  have htokens := tokens_printOnto h [] delimits_nil
  have hroot := assemble_toTokens h [] [] .value (.inl rfl)
  unfold Document.parse compact
  rw [String.toList_ofList, htokens]
  exact hroot

/-- To read the compact text of a canonical value is to read the value. -/
theorem readDocument_compact {α : Type} (read : (room : Nat) → Json → Reading α)
    {j : Json} (h : j.Canonical) : readDocument read j.compact = read maxDepth j := by
  unfold readDocument
  rw [parse_compact h]
  simp

end Consult.Json
