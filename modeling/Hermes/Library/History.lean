import Mathlib.Data.List.Basic

/- Histories: logs of events, the newest first, every one of which was allowed
   by the events before it. -/
namespace Process

variable {ν : Type}

/-- Every event of the log was allowed by the log before it. -/
def Guarded (allowed : List ν → ν → Prop) : List ν → Prop
  | [] => True
  | e :: past => allowed past e ∧ Guarded allowed past

namespace Guarded

variable {allowed : List ν → ν → Prop}

theorem cons {e : ν} {past : List ν} (he : allowed past e) (h : Guarded allowed past) :
    Guarded allowed (e :: past) :=
  ⟨he, h⟩

/-- A guarded log allowed each of its events when it happened. -/
theorem split {later past : List ν} {e : ν} (h : Guarded allowed (later ++ e :: past)) :
    allowed past e := by
  induction later with
  | nil => exact h.1
  | cons _ _ ih => exact ih h.2

theorem mem {log : List ν} {e : ν} (h : Guarded allowed log) (he : e ∈ log) :
    ∃ past, past ⊆ log ∧ allowed past e := by
  obtain ⟨later, past, rfl⟩ := List.append_of_mem he
  exact ⟨past, fun x hx => by simp [hx], h.split⟩

end Guarded

/-- What implies one rule for events in logs of events with `φ` implies it for whole logs. -/
theorem Guarded.mono_of {allowed allowed' : List ν → ν → Prop} {φ : ν → Prop} {log : List ν}
    (h : Guarded allowed log) (hφ : ∀ x ∈ log, φ x)
    (himp : ∀ past e, (∀ x ∈ past, φ x) → allowed past e → allowed' past e) :
    Guarded allowed' log := by
  induction log with
  | nil => trivial
  | cons e past ih =>
    have hpast : ∀ x ∈ past, φ x := fun x hx => hφ x (by simp [hx])
    exact ⟨himp past e hpast h.1, ih h.2 hpast⟩

/-- Events that make no claim on the past may be added to any log. -/
theorem guarded_append {allowed : List ν → ν → Prop} {new past : List ν}
    (hnew : ∀ e ∈ new, ∀ p, allowed p e) (h : Guarded allowed past) :
    Guarded allowed (new ++ past) := by
  induction new with
  | nil => exact h
  | cons e new ih =>
    exact ⟨hnew e (by simp) _, ih (fun x hx => hnew x (by simp [hx]))⟩

end Process
