import Consult.Proofs.Provenance
import Consult.Proofs.Roundtrip

/-!
# Putting a consultation aside

A consultation can be written down at any time, and what was written says all there
is to it.  Whether it can be read again is a matter of nesting: the reason of a fact
holds the reasons of the facts that it was inferred from, and so on down to what was
given or answered, and every link of such a chain takes four levels of the text.  A
chain of 32 facts is more than a reader opens.

## Main results

* `Warranted.rereadable` — all rules in the reasons of recorded facts can
  be written and read back.
* `height_le_depth` — how deeply a chain of reasons is nested.
* `parked_resumable_iff` — when a consultation that was put aside can be taken up again.
-/

namespace Consult

open Json (maxDepth)

/-! ## Rules in recorded reasons -/

/-- The reason is that of a recorded fact. -/
def Facts.Records (facts : Facts) (reason : Reason) : Prop :=
  ∃ fact record, facts.get? fact = some record ∧ record.reason = reason

section Records

variable {kb : KnowledgeBase} {facts : Facts}

/-- A fired rule that is recorded belongs to the knowledge base, and its
grounds are recorded. -/
theorem KnowledgeBase.Warranted.of_inferred (h : kb.Warranted facts) {rule : Rule}
    {finding : Finding} (hrecords : facts.Records (.inferred rule finding)) :
    rule ∈ kb.rules ∧ ∀ reason, finding.Cites reason → facts.Records reason := by
  obtain ⟨fact, ⟨value, reason⟩, hget, rfl⟩ := hrecords
  cases h fact _ hget with
  | inferred hrule _ _ _ hcited =>
      refine ⟨hrule, fun reason hcites => ?_⟩
      obtain ⟨other, -, hrecorded⟩ := hcited reason hcites
      exact ⟨other, hrecorded⟩

mutual

private theorem Reason.rereadable_of_records (hkb : kb.Rereadable)
    (hw : kb.Warranted facts) :
    ∀ {reason : Reason}, facts.Records reason → reason.Rereadable
  | .answered _ _, _ => trivial
  | .inferred _ _, h =>
    ⟨hkb _ (hw.of_inferred h).1, Finding.rereadable_of_cited hkb hw
      (hw.of_inferred h).2⟩
  | .given _, _ => trivial

private theorem Finding.rereadable_of_cited (hkb : kb.Rereadable)
    (hw : kb.Warranted facts) :
    ∀ {f : Finding}, (∀ reason, f.Cites reason → facts.Records reason) → f.Rereadable
  | .because _ _, h =>
    Ground.allRereadable_of_cited hkb hw (fun _ hmem => h _ (.cause hmem))
      fun _ hmem _ hcites => h _ (.part hmem hcites)

private theorem Ground.rereadable_of_cited (hkb : kb.Rereadable)
    (hw : kb.Warranted facts) :
    ∀ {g : Ground}, (∀ reason, g = .cause reason → facts.Records reason) →
      (∀ f, g = .finding f → ∀ reason, f.Cites reason → facts.Records reason) →
        g.Rereadable
  | .unknown _, _, _ => trivial
  | .finding f, _, h => Finding.rereadable_of_cited hkb hw (h f rfl)
  | .cause reason, h, _ => Reason.rereadable_of_records hkb hw (h reason rfl)

private theorem Ground.allRereadable_of_cited (hkb : kb.Rereadable)
    (hw : kb.Warranted facts) :
    ∀ {gs : List Ground}, (∀ reason, .cause reason ∈ gs → facts.Records reason) →
      (∀ f, .finding f ∈ gs → ∀ reason, f.Cites reason → facts.Records reason) →
      Ground.AllRereadable gs
  | [], _, _ => trivial
  | _ :: _, hcause, hfinding =>
    ⟨Ground.rereadable_of_cited hkb hw
        (fun reason heq => hcause reason (heq ▸ List.mem_cons_self))
        (fun f heq => hfinding f (heq ▸ List.mem_cons_self)),
      Ground.allRereadable_of_cited hkb hw
        (fun reason hmem => hcause reason (List.mem_cons_of_mem _ hmem))
        fun f hmem => hfinding f (List.mem_cons_of_mem _ hmem)⟩

end

/-- All rules in the reasons of recorded facts can be written and read back. -/
theorem KnowledgeBase.Warranted.rereadable (hkb : kb.Rereadable)
    (h : kb.Warranted facts) {e : String × Record} (he : e ∈ facts.entries) :
    e.2.Rereadable :=
  Reason.rereadable_of_records hkb h ⟨e.1, e.2, KeyMap.mem_entries_iff.1 he, rfl⟩

end Records

/-- Whatever a caller can reach can be written and read back, but for its nesting. -/
theorem KnowledgeBase.Reachable.rereadable {kb : KnowledgeBase} {limits : Limits}
    {p : Engine.Progress} (hreach : kb.Reachable limits p) (hkb : kb.Rereadable) :
    p.state.Rereadable where
  facts _ he := hreach.attains.warranted.rereadable hkb he
  rules r hr := hkb r (hreach.course.rules hr)

/-! ## Chains of reasons -/

mutual

/-- The number of facts in the longest chain that ends with a reason: one is inferred
from the other, down to one that was given or answered. -/
def Reason.height : Reason → Nat
  | .answered _ _ => 1
  | .inferred _ f => f.height + 1
  | .given _ => 1
termination_by structural r => r

/-- The greatest height of a reason that a finding leads back to. -/
def Finding.height : Finding → Nat
  | .because _ gs => Ground.heights gs
termination_by structural f => f

/-- The height of what a ground holds. -/
def Ground.height : Ground → Nat
  | .unknown _ => 0
  | .finding f => f.height
  | .cause r => r.height
termination_by structural g => g

/-- The greatest height of a ground. -/
def Ground.heights : List Ground → Nat
  | [] => 0
  | g :: gs => max g.height (Ground.heights gs)
termination_by structural gs => gs

end

mutual

/-- Every link of a chain of reasons takes four levels. -/
theorem Reason.height_le_depth : ∀ r : Reason, 4 * r.height ≤ r.toJson.depth + 3
  | .answered q c => by
    have hpos := Reason.depth_toJson_ne_zero (.answered q c)
    rw [Reason.height]
    omega
  | .inferred r f => by
    have hfinding := Finding.height_le_depth f
    have hinside : f.toJson.depth < (Reason.inferred r f).toJson.depth :=
      Json.depth_lt_of_mem_object (m := Json.member "truth" f.toJson) (by simp)
    rw [Reason.height]
    omega
  | .given explanation => by
    rw [Reason.depth_toJson_given, Reason.height]

theorem Finding.height_le_depth : ∀ f : Finding, 4 * f.height ≤ f.toJson.depth
  | .because v gs => by
    have hgrounds := Ground.heights_le_depth gs
    have hinside : (Json.array (gs.map Ground.toJson)).depth <
        (Finding.because v gs).toJson.depth := by
      rw [← Ground.toJsonList_eq]
      exact Json.depth_lt_of_mem_object (m := Json.member "factors" _) (by simp)
    rw [Finding.height]
    omega

theorem Ground.height_le_depth : ∀ g : Ground, 4 * g.height ≤ g.toJson.depth + 2
  | .unknown _ => by
    rw [Ground.height]
    omega
  | .finding f => by
    have hfinding := Finding.height_le_depth f
    rw [Ground.height, Ground.depth_toJson_finding]
    omega
  | .cause r => by
    have hreason := Reason.height_le_depth r
    rw [Ground.height, Ground.depth_toJson_cause]
    omega

theorem Ground.heights_le_depth :
    ∀ gs : List Ground, 4 * Ground.heights gs ≤
      (Json.array (gs.map Ground.toJson)).depth + 1
  | [] => by
    rw [Ground.heights]
    omega
  | g :: gs => by
    have hground := Ground.height_le_depth g
    have hrest := Ground.heights_le_depth gs
    have hdepth : (Json.array ((g :: gs).map Ground.toJson)).depth =
        max g.toJson.depth (Json.depthItems (gs.map Ground.toJson)) + 1 := rfl
    have htail : (Json.array (gs.map Ground.toJson)).depth =
        Json.depthItems (gs.map Ground.toJson) + 1 := rfl
    rw [Ground.heights]
    omega

end

/-- A chain of reasons behind a recorded fact is nested in the text of the
consultation. -/
theorem Consultation.height_le_depth {s : Consultation} {fact : String}
    {record : Record} (hget : s.facts.get? fact = some record) :
    4 * record.reason.height ≤ s.toJson.depth := by
  have hreason := record.reason.height_le_depth
  have hentry : (record.toJson).depth < (Json.mapToJson Record.toJson s.facts).depth :=
    Json.depth_lt_of_mem_object (m := Json.member fact record.toJson)
      (List.mem_map_of_mem (f := fun e => Json.member e.1 (Record.toJson e.2))
        (KeyMap.mem_entries_iff.2 hget))
  have hfacts : (Json.mapToJson Record.toJson s.facts).depth < s.toJson.depth :=
    Json.depth_lt_of_mem_object (m := Json.member "facts" _) (by simp)
  rw [Record.depth_toJson] at hentry
  omega

/-! ## Taking a consultation up again -/

/-- **When a consultation that was put aside can be taken up again.** Whatever a
caller has done, the text of a consultation is read back as that very consultation
if it is nested no deeper than a reader goes, and else it is refused.  In
particular it is refused if some fact stands at the end of a chain of 32, each
inferred from the one before. -/
theorem parked_resumable_iff (e : Engine) {text : String}
    (hparse : KnowledgeBase.parse text = .ok e.knowledge) (p : Engine.Progress)
    (hreach : e.Reachable p) :
    (Consultation.resume p.state.park = .ok p.state ↔ p.state.toJson.depth ≤ maxDepth) ∧
      (maxDepth < p.state.toJson.depth →
        ∃ flaw, Consultation.resume p.state.park = .error flaw) ∧
      ∀ fact record, p.state.facts.get? fact = some record → 32 ≤ record.reason.height →
        ∃ flaw, Consultation.resume p.state.park = .error flaw := by
  have hkb : e.knowledge.Rereadable :=
    (KnowledgeBase.reread (KnowledgeBase.parse_eq_ok.1 hparse).1).2.1
  have hfit := hreach.rereadable hkb
  have hrefused : maxDepth < p.state.toJson.depth →
      ∃ flaw, Consultation.resume p.state.park = .error flaw := by
    intro hdeep
    cases hresume : Consultation.resume p.state.park with
    | error flaw => exact ⟨flaw, rfl⟩
    | ok s =>
        have hle := ((Consultation.resume_park_eq_ok hfit).1 hresume).2
        omega
  refine ⟨?_, hrefused, fun fact record hget hheight => hrefused ?_⟩
  · rw [Consultation.resume_park_eq_ok hfit]
    exact and_iff_right rfl
  · have hle := Consultation.height_le_depth hget
    have hmax : maxDepth = 127 := rfl
    omega

/-! ### Dominoes -/

/-- The name of a domino. -/
def domino (i : Nat) : String := s!"f{i}"

/-- A row of dominoes: the first one falls, and each makes the next one fall. -/
def dominoes (n : Nat) : KnowledgeBase where
  strategy := .forward
  rules := (List.range n).map fun i =>
    { condition := .compare ⟨domino i, "y", .eq⟩
      consequences := KeyMap.empty.insert (domino (i + 1)) "y" }
  facts := KeyMap.empty.insert (domino 0) "y"

/-- Nothing can be wrong with a group where there is none. -/
theorem eachGroup_dominoes (n : Nat) (P : Nat → Nat → Prop) :
    ∀ r ∈ (dominoes n).rules, r.condition.EachGroup P := by
  simp [dominoes]

theorem rereadable_dominoes (n : Nat) : (dominoes n).Rereadable := by
  intro r hr
  unfold Rule.Rereadable Condition.Rereadable
  exact eachGroup_dominoes n _ r hr

theorem check_dominoes (n : Nat) : (dominoes n).check = .ok () :=
  KnowledgeBase.check_eq_ok.2 fun r hr =>
    Condition.check_eq_ok.2 (eachGroup_dominoes n _ r hr)

/-- The engine for a row of dominoes. -/
def dominoEngine (n : Nat) : Engine where
  knowledge := dominoes n
  checked := check_dominoes n

/-- The dominoes when all have fallen. -/
def fallen (n : Nat) : Engine.Progress where
  state := ((dominoEngine n).step (dominoEngine n).start).state
  asked := Engine.handedOut ((dominoEngine n).step (dominoEngine n).start).result ++ []

theorem reachable_fallen (n : Nat) : (dominoEngine n).Reachable (fallen n) :=
  .single (.step ⟨(dominoEngine n).start, []⟩)

/-- After 31 dominoes a consultation can be taken up again. -/
theorem thirty_dominoes_resumable :
    KnowledgeBase.parse (dominoes 30).toJson.compact = .ok (dominoEngine 30).knowledge ∧
      (fallen 30).state.toJson.depth = 124 ∧
      Consultation.resume (fallen 30).state.park = .ok (fallen 30).state := by
  have hparse :=
    KnowledgeBase.parse_compact_of_check (check_dominoes 30) (eachGroup_dominoes 30 _)
    (by decide +kernel)
  have hdepth : (fallen 30).state.toJson.depth = 124 := by decide +kernel
  have hresume :=
    parked_resumable_iff (dominoEngine 30) hparse (fallen 30) (reachable_fallen 30)
  exact ⟨hparse, hdepth, hresume.1.2 (by rw [hdepth]; decide)⟩

/-- After one more it cannot. -/
theorem not_always_resumable :
    ¬∀ (e : Engine) (text : String) (p : Engine.Progress),
      KnowledgeBase.parse text = .ok e.knowledge → e.Reachable p →
        Consultation.resume p.state.park = .ok p.state := by
  intro h
  have hparse :=
    KnowledgeBase.parse_compact_of_check (check_dominoes 31) (eachGroup_dominoes 31 _)
    (by decide +kernel)
  have hresume := h (dominoEngine 31) _ (fallen 31) hparse (reachable_fallen 31)
  have hfit := (reachable_fallen 31).rereadable (rereadable_dominoes 31)
  have hle := ((Consultation.resume_park_eq_ok hfit).1 hresume).2
  have hdepth : (fallen 31).state.toJson.depth = 128 := by decide +kernel
  rw [hdepth] at hle
  exact absurd hle (by decide)

end Consult
