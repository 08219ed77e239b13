import Consult.Proofs.Format.Consultation

/-!
# Documents are read back from their canonical texts

Reading undoes writing, in two senses.  A knowledge base that passes its check is read
back from its text, however it was put together, if that text is not nested too
deeply.  And whatever was read from some text is read back from the canonical text for
it: then nothing needs to be said about nesting, since a canonical text has no more of
it than any other text for the same value, or hardly more.

## Main results

* `KnowledgeBase.read_back_or_refused` — knowledge bases are read back, or refused.
* `reading_undoes_writing` — whatever was read is read back.
-/

namespace Consult

open Json (readDocument maxDepth Document)
open Json.Reading (bind_eq_ok pure_eq_ok)

namespace KnowledgeBase

/-- A knowledge base is read from a text if the form of the text is right
and the check is passed. -/
theorem parse_eq_ok {text : String} {kb : KnowledgeBase} :
    parse text = .ok kb ↔ readDocument read text = .ok kb ∧ kb.check = .ok () := by
  unfold parse
  cases hread : readDocument read text with
  | error flaw => simp [throw, throwThe, MonadExceptOf.throw]
  | ok kb' =>
      cases hcheck : kb'.check with
      | error fault =>
          have hne : kb' = kb → kb.check ≠ .ok () := fun heq => by simp [← heq, hcheck]
          simpa [hcheck, bind, Except.bind] using hne
      | ok u =>
          have heq : kb' = kb → kb.check = .ok () := fun heq => heq ▸ hcheck
          simpa [hcheck, bind, Except.bind, pure, Except.pure] using heq

/-- A check that is passed is passed by every rule. -/
theorem check_eq_ok {kb : KnowledgeBase} :
    kb.check = .ok () ↔ ∀ r ∈ kb.rules, r.condition.check = .ok () := by
  rw [check]
  induction kb.rules with
  | nil => simp [pure, Except.pure]
  | cons r rules ih =>
      rw [List.forM, List.forall_mem_cons, ← ih]
      cases r.condition.check with
      | error fault => simp [bind, Except.bind]
      | ok u => simp [bind, Except.bind]

/-- If a knowledge base is read from its text, it is the one that was written. -/
theorem readDocument_compact {kb kb' : KnowledgeBase}
    (h : ∀ r ∈ kb.rules, r.condition.Writable) :
    readDocument read kb.toJson.compact = .ok kb' ↔
      kb' = kb ∧ kb.Rereadable ∧ kb.toJson.depth ≤ maxDepth := by
  rw [Json.readDocument_compact read (canonical_toJson h), rereads]

/-- A checked knowledge base is read back from its text. -/
theorem parse_compact_of_check {kb : KnowledgeBase} (hcheck : kb.check = .ok ())
    (hthresholds : ∀ r ∈ kb.rules, r.condition.EachGroup fun k _ => k < UInt64.size)
    (hdepth : kb.toJson.depth ≤ maxDepth) : parse kb.toJson.compact = .ok kb := by
  have hfit : kb.Rereadable := fun r hr =>
    Condition.rereadable_of_check (check_eq_ok.1 hcheck r hr) (hthresholds r hr)
  have hread :=
    (readDocument_compact fun r hr => (hfit r hr).writable).2 ⟨rfl, hfit, hdepth⟩
  exact parse_eq_ok.2 ⟨hread, hcheck⟩

/-- **Knowledge bases are read back.** One whose thresholds have 64 bits and whose
text is not nested too deeply is read back from that text if it passes its check, with
all its conditions as they were; otherwise it is refused. -/
theorem read_back_or_refused (kb : KnowledgeBase)
    (hthresholds : ∀ r ∈ kb.rules, r.condition.EachGroup fun k _ => k < UInt64.size)
    (hdepth : kb.toJson.depth ≤ maxDepth) :
    (kb.check = .ok () → parse kb.toJson.compact = .ok kb ∧
      ∀ r ∈ kb.rules, Condition.read false maxDepth r.condition.toJson =
        .ok r.condition) ∧
    (∀ fault, kb.check = .error fault →
      ∃ fault', parse kb.toJson.compact = .error fault') := by
  have hwritable : ∀ r ∈ kb.rules, r.condition.Writable := fun r hr =>
    (hthresholds r hr).imp fun k n hk => .inr hk
  constructor
  · intro hcheck
    refine ⟨parse_compact_of_check hcheck hthresholds hdepth, fun r hr => ?_⟩
    have hfit :=
      Condition.rereadable_of_check (check_eq_ok.1 hcheck r hr) (hthresholds r hr)
    refine (Condition.rereads false maxDepth r.condition _).2 ⟨rfl, hfit, ?_⟩
    have hrules := (depth_toJson_le.1 hdepth).1
    have hrule : r.toJson.depth ≤ 125 :=
      Json.depth_array_le.1 hrules _ (List.mem_map_of_mem hr)
    exact Nat.le_trans (Rule.depth_toJson_le.1 hrule) (by decide)
  · intro fault hcheck
    cases hparse : parse kb.toJson.compact with
    | error fault' => exact ⟨fault', rfl⟩
    | ok kb' =>
        obtain ⟨hread, hpassed⟩ := parse_eq_ok.1 hparse
        obtain ⟨rfl, -⟩ := (readDocument_compact hwritable).1 hread
        rw [hpassed] at hcheck
        exact nomatch hcheck

/-- All spellings of groups, among them empty groups, groups of one,
and a threshold of none. -/
def spellings : KnowledgeBase where
  rules :=
    let rain : Condition := .compare ⟨"rain", "yes", .eq⟩
    let wind : Condition := .compare ⟨"wind", "7", .gte⟩
    [.atLeast 0 [], .atLeast 1 [rain], .atLeast 0 [rain], .atLeast 1 [rain, wind],
      .atLeast 2 [rain, wind],
      .negation (.atLeast 2 [rain, wind, .atLeast 0 []])].map fun c =>
        { condition := c, consequences := .ofList [("weather", "bad \x22\n")],
          priority := -1 }

/-- One rule that asks for more than it has. -/
def impossible : KnowledgeBase where
  rules := [{ condition := .atLeast 3 [], consequences := .empty }]

theorem spellings_read_back :
    spellings.check = .ok () ∧ parse spellings.toJson.compact = .ok spellings ∧
      impossible.check = .error (.excessiveThreshold 3 0) ∧
      ∃ fault, parse impossible.toJson.compact = .error fault := by
  have hspellings : ∀ r ∈ spellings.rules, r.condition.EachGroup fun k _ =>
      k < UInt64.size := by
    simp [spellings, UInt64.size]
  have himpossible : ∀ r ∈ impossible.rules, r.condition.EachGroup fun k _ =>
      k < UInt64.size := by
    simp [impossible, UInt64.size]
  exact ⟨rfl, ((read_back_or_refused spellings hspellings (by decide)).1 rfl).1, rfl,
    (read_back_or_refused impossible himpossible (by decide)).2 _ rfl⟩

end KnowledgeBase

/-! ## Whatever was read -/

/-- A knowledge base that was read is read again from its canonical text, which has at
most one more level, and that up to the fourth one. -/
theorem KnowledgeBase.reread {text : String} {kb : KnowledgeBase}
    (h : readDocument read text = .ok kb) :
    readDocument read kb.toJson.compact = .ok kb ∧ kb.Rereadable ∧
      kb.toJson.depth ≤ max 4 (Document.parse text).root.depth ∧
      kb.toJson.depth ≤ (Document.parse text).root.depth + 1 := by
  obtain ⟨hfit, hfour, hone⟩ := rereadable_of_read (Json.read_of_readDocument h)
  have hmax : maxDepth = 127 := rfl
  refine ⟨(readDocument_compact fun r hr => (hfit r hr).writable).2 ⟨rfl, hfit, ?_⟩,
    hfit, ?_, hone⟩
  · omega
  · omega

/-- **Reading undoes writing.** A consultation, a condition, a finding or a knowledge
base that was read from some text is read back from its canonical text, and so are all
groups in it.  The canonical text is nested no deeper than the one before, except that
a knowledge base may have left out lists that are written: then it takes one more
level, up to the fourth one. -/
theorem reading_undoes_writing :
    (∀ text s, Consultation.resume text = .ok s →
      Consultation.resume s.park = .ok s ∧ s.Rereadable ∧
        s.toJson.depth ≤ (Document.parse text).root.depth) ∧
    (∀ text c, readDocument (Condition.read false) text = .ok c →
      readDocument (Condition.read false) c.toJson.compact = .ok c ∧ c.Rereadable ∧
        c.toJson.depth ≤ (Document.parse text).root.depth) ∧
    (∀ text f, Finding.parse text = .ok f →
      Finding.parse f.toJson.compact = .ok f ∧ f.Rereadable ∧
        f.toJson.depth ≤ (Document.parse text).root.depth) ∧
    (∀ text kb, readDocument KnowledgeBase.read text = .ok kb →
      readDocument KnowledgeBase.read kb.toJson.compact = .ok kb ∧ kb.Rereadable ∧
        kb.toJson.depth ≤ max 4 (Document.parse text).root.depth ∧
        kb.toJson.depth ≤ (Document.parse text).root.depth + 1) ∧
    (∀ text kb, KnowledgeBase.parse text = .ok kb →
      KnowledgeBase.parse kb.toJson.compact = .ok kb) := by
  refine ⟨fun text s h => ?_, fun text c h => ?_, fun text f h => ?_,
    fun text kb h => KnowledgeBase.reread h, fun text kb h => ?_⟩
  · exact (Consultation.confines maxDepth).reread (Consultation.rereads maxDepth)
      Consultation.canonical_toJson h
  · exact (Condition.confines false maxDepth).reread (Condition.rereads false maxDepth)
      (fun hfit => Condition.canonical_toJson hfit.writable) h
  · exact (Finding.confines false maxDepth).reread (Finding.rereads false maxDepth)
      Finding.canonical_toJson h
  · obtain ⟨hread, hcheck⟩ := KnowledgeBase.parse_eq_ok.1 h
    exact KnowledgeBase.parse_eq_ok.2 ⟨(KnowledgeBase.reread hread).1, hcheck⟩

/-- A group of one that is spelled `some`, its records as arrays, is written as
`all`. -/
theorem respelled_group_read_back :
    let text := "\x7b\"some\":[1,[\x7b\"fact\":[\"a\",\"b\"]\x7d]]\x7d"
    let c := Condition.atLeast 1 [.compare ⟨"a", "b", .eq⟩]
    readDocument (Condition.read false) text = .ok c ∧
      c.toJson.compact = "\x7b\"all\":[\x7b\"fact\":" ++
        "\x7b\"name\":\"a\",\"value\":\"b\",\"test\":\"eq\"\x7d\x7d]\x7d" ∧
      readDocument (Condition.read false) c.toJson.compact = .ok c := by
  have hread : readDocument (Condition.read false)
      "\x7b\"some\":[1,[\x7b\"fact\":[\"a\",\"b\"]\x7d]]\x7d" =
        .ok (.atLeast 1 [.compare ⟨"a", "b", .eq⟩]) := by decide +kernel
  exact ⟨hread, rfl, (reading_undoes_writing.2.1 _ _ hread).1⟩

/-- The shortest knowledge base is written with one level more, since
its lists are written. -/
theorem shortest_knowledge_deepened :
    KnowledgeBase.parse "\x7b\x7d" = .ok {} ∧
      ({} : KnowledgeBase).toJson.compact =
        "\x7b\"title\":\"\",\"algorithm\":\"backward-chaining\"," ++
        "\"rules\":[],\"questions\":[],\"goals\":[],\"facts\":\x7b\x7d\x7d" ∧
      ¬({} : KnowledgeBase).toJson.depth ≤ (Document.parse "\x7b\x7d").root.depth := by
  refine ⟨rfl, rfl, ?_⟩
  have hwritten : ({} : KnowledgeBase).toJson.depth = 2 := rfl
  have hread : (Document.parse "\x7b\x7d").root.depth = 1 := rfl
  omega

end Consult
