import Consult.Format.Consultation
import Consult.Proofs.Format.Finding

/-!
# Consultations and their JSON forms belong together

A consultation that is put aside holds the reasons for all its facts, and a reason
holds those of the facts that it rests on.  So it can be taken up again exactly if these
chains of reasons are not nested too deeply.

## Main results

* `Consultation.rereads`, `Consultation.confines` — reading undoes writing.
* `Consultation.resume_park_eq_ok` — when a consultation that was put aside can be
  resumed.
-/

namespace Consult

open Json (Reading readText readList readMap fields member maxDepth Rereads Confines)
open Json.Reading (bind_eq_ok pure_eq_ok throw_ne_ok)

namespace Record

/-- A record is written and read back if all rules in its reason are. -/
def Rereadable (r : Record) : Prop := r.reason.Rereadable

theorem canonical_toJson {r : Record} (h : r.Rereadable) : r.toJson.Canonical := by
  have hreason := Reason.canonical_toJson h
  simp [toJson, hreason]

theorem depth_toJson (r : Record) : r.toJson.depth = r.reason.toJson.depth + 1 := by
  simp [toJson, Json.depth, Json.depthMembers]

theorem rereads (room : Nat) : Rereads read toJson Rereadable room := by
  intro r r'
  rw [depth_toJson]
  cases room with
  | zero => simp [read, throw_ne_ok]
  | succ room =>
      have hreason := Reason.rereads false room r.reason
      constructor
      · intro h
        simp [read, toJson, bind_eq_ok, hreason] at h
        obtain ⟨-, ⟨hfit, hdepth⟩, rfl⟩ := h
        exact ⟨rfl, hfit, Nat.succ_le_succ hdepth⟩
      · rintro ⟨rfl, hfit, hdepth⟩
        have hr := (hreason r'.reason).2 ⟨rfl, hfit, Nat.le_of_succ_le_succ hdepth⟩
        simp [read, toJson, hr, List.lookup_cons]

theorem confines (room : Nat) : Confines read toJson Rereadable room := by
  intro j r h
  cases room with
  | zero => exact absurd h throw_ne_ok
  | succ room =>
      simp only [read, bind_eq_ok, pure_eq_ok] at h
      obtain ⟨fs, hfs, _, -, value, -, reason, hreason, rfl⟩ := h
      obtain ⟨n, hdepth, hwithin⟩ := Json.fields_within hfs
      obtain ⟨hfit, hle⟩ := (Reason.confines false room).required hwithin hreason
      rw [hdepth, Nat.succ_min_succ, depth_toJson]
      exact ⟨hfit, Nat.succ_le_succ hle⟩

end Record

namespace Consultation

/-- A consultation is written and read back if all rules in it are,
those in reasons included. -/
structure Rereadable (s : Consultation) : Prop where
  facts : ∀ e ∈ s.facts.entries, e.2.Rereadable
  rules : ∀ r ∈ s.rules, r.Rereadable

theorem toJson_eq (s : Consultation) : s.toJson = .object [
    member "facts" (Json.mapToJson Record.toJson s.facts),
    member "rules" (.array (s.rules.map Rule.toJson)),
    member "questions" (.array (s.questions.map Question.toJson)),
    member "goal_stack" (.array (s.agenda.reverse.map Json.text))] := rfl

theorem canonical_toJson {s : Consultation} (h : s.Rereadable) :
    s.toJson.Canonical := by
  have hfacts := Json.canonical_mapToJson.2 fun e he =>
      Record.canonical_toJson (h.facts e he)
  have hrules : ∀ r ∈ s.rules, r.toJson.Canonical := fun r hr =>
    Rule.canonical_toJson (h.rules r hr).writable
  simpa [toJson_eq, hfacts] using hrules

theorem depth_toJson_le {s : Consultation} {n : Nat} :
    s.toJson.depth ≤ n + 1 ↔ (Json.mapToJson Record.toJson s.facts).depth ≤ n ∧
      (Json.array (s.rules.map Rule.toJson)).depth ≤ n ∧
      (Json.array (s.questions.map Question.toJson)).depth ≤ n ∧
      (Json.array (s.agenda.reverse.map Json.text)).depth ≤ n := by
  simp [toJson_eq]

theorem rereads (room : Nat) : Rereads read toJson Rereadable room := by
  intro s s'
  cases room with
  | zero => simp [read, throw_ne_ok, toJson]
  | succ room =>
      rw [depth_toJson_le, toJson_eq]
      have hfacts := Rereads.map room (fun room' _ => Record.rereads room') s.facts
      have hrules := Rereads.list room (fun room' _ => Rule.rereads false room') s.rules
      have hquestions := Rereads.list room (fun room' _ => Question.rereads room')
        s.questions
      have hagenda := Rereads.list room (fun _ _ => Json.rereads_text) s.agenda.reverse
      constructor
      · intro h
        simp [read, bind_eq_ok, hfacts, hrules, hquestions, hagenda,
          -List.map_reverse] at h
        obtain ⟨-, ⟨hfit_facts, hf⟩, ⟨hfit_rules, hr⟩, hq, ha, rfl⟩ := h
        exact ⟨rfl, ⟨fun e he => hfit_facts e.1 e.2 he, hfit_rules⟩, hf, hr, hq, ha⟩
      · rintro ⟨rfl, hfit, hle_facts, hle_rules, hle_questions, hle_agenda⟩
        have hf := (hfacts _).2 ⟨rfl, hfit.facts, hle_facts⟩
        have hr := (hrules _).2 ⟨rfl, hfit.rules, hle_rules⟩
        have hq := (hquestions _).2 ⟨rfl, fun _ _ => trivial, hle_questions⟩
        have ha := (hagenda _).2 ⟨rfl, fun _ _ => trivial, hle_agenda⟩
        simp [read, hf, hr, hq, ha, List.lookup_cons, -List.map_reverse]

theorem confines (room : Nat) : Confines read toJson Rereadable room := by
  intro j s h
  cases room with
  | zero => exact absurd h throw_ne_ok
  | succ room =>
      simp only [read, bind_eq_ok, pure_eq_ok] at h
      obtain ⟨fs, hfs, _, -, facts, hfacts, rules, hrules, questions, hquestions,
          agenda, hagenda,
        rfl⟩ := h
      obtain ⟨n, hdepth, hwithin⟩ := Json.fields_within hfs
      have hmap := Confines.map room fun room' _ => Record.confines room'
      have hlist_rules := Confines.list room fun room' _ => Rule.confines false room'
      have hlist_questions := Confines.list room fun room' _ => Question.confines room'
      have hlist_agenda := Confines.list room fun _ _ => Json.confines_text
      obtain ⟨hfit_facts, hf⟩ := hmap.required hwithin hfacts
      obtain ⟨hfit_rules, hr⟩ := hlist_rules.required hwithin hrules
      obtain ⟨-, hq⟩ := hlist_questions.required hwithin hquestions
      obtain ⟨-, ha⟩ := hlist_agenda.required hwithin hagenda
      rw [hdepth, Nat.succ_min_succ, depth_toJson_le, List.reverse_reverse]
      exact ⟨⟨hfit_facts, hfit_rules⟩, hf, hr, hq, ha⟩

/-- A consultation that was put aside can be resumed exactly if it is
not nested too deeply. -/
theorem resume_park_eq_ok {s s' : Consultation} (h : s.Rereadable) :
    resume s.park = .ok s' ↔ s' = s ∧ s.toJson.depth ≤ maxDepth := by
  rw [resume, park, Json.readDocument_compact read (canonical_toJson h), rereads]
  exact and_congr_right fun _ => and_iff_right h

end Consultation

end Consult
