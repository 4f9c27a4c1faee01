import Formwork.Proofs.Slots

/-!
The phase of a field tells what its advisory outcome is, after every operation on its slot.
-/

namespace Formwork

/-- What the phase of a field tells about its advisory outcomes and its value. -/
structure Slot.Coherent (c : Slot) : Prop where
  idle : c.phase = .idle → c.advisory = {} ∧ c.resolved = {}
  debouncing : c.phase = .debouncing → c.advisory = c.resolved
  pending : c.phase = .pending → c.advisory = ⟨.pending, c.resolved.findings⟩
  resolved : c.phase = .resolved → c.advisory = c.resolved ∧ c.resolved.status = .resolved
  final : c.resolved = {} ∨ c.resolved.status = .resolved
  valued : c.phase ≠ .idle → c.value.isBlank = false

namespace Slot.Coherent

variable {a : Slot}

/-- Whatever the phase, the findings that are shown are those of the last result. -/
theorem findings (h : a.Coherent) : a.advisory.findings = a.resolved.findings := by
  cases hp : a.phase with
  | idle => rw [(h.idle hp).1, (h.idle hp).2]
  | debouncing => rw [h.debouncing hp]
  | pending => rw [h.pending hp]
  | resolved => rw [(h.resolved hp).1]

theorem with_value (h : a.Coherent) {v : Value} (hb : v.isBlank = false) :
    Slot.Coherent { a with value := v } :=
  ⟨h.idle, h.debouncing, h.pending, h.resolved, h.final, fun _ => hb⟩

theorem with_outcome (h : a.Coherent) (o : Outcome) : Slot.Coherent { a with structural := o } :=
  ⟨h.idle, h.debouncing, h.pending, h.resolved, h.final, h.valued⟩

theorem checked (h : a.Coherent) {v : Value} (hb : v.isBlank = false) (o : Outcome) :
    (a.checked v o).Coherent :=
  ⟨h.idle, h.debouncing, h.pending, h.resolved, h.final, fun _ => hb⟩

theorem with_timer (h : a.Coherent) (t : Option Nat) : Slot.Coherent { a with timer := t } :=
  ⟨h.idle, h.debouncing, h.pending, h.resolved, h.final, h.valued⟩

theorem forget (h : a.Coherent) (task : Nat) : (Session.forget a task).Coherent := by
  unfold Session.forget
  split
  · exact ⟨h.idle, h.debouncing, h.pending, h.resolved, h.final, h.valued⟩
  · exact h

theorem cleared (a : Slot) (v : Value) (o : Outcome) : (a.cleared v o).Coherent where
  idle _ := ⟨rfl, rfl⟩
  debouncing h := by cases h
  pending h := by cases h
  resolved h := by cases h
  final := .inl rfl
  valued h := absurd rfl h

theorem paused (h : a.Coherent) {v : Value} (hb : v.isBlank = false) (o : Outcome) (t : Option Nat) :
    (a.paused v o t).Coherent where
  idle h := by cases h
  debouncing _ := rfl
  pending h := by cases h
  resolved h := by cases h
  final := h.final
  valued _ := hb

theorem requested (h : a.Coherent) (hb : a.value.isBlank = false) (task : Nat) :
    (a.requested task).Coherent where
  idle h := by cases h
  debouncing h := by cases h
  pending _ := congrArg (AdvisoryOutcome.mk .pending) h.findings
  resolved h := by cases h
  final := h.final
  valued _ := hb

theorem committed (hb : a.value.isBlank = false) (found : List Finding) : (a.committed found).Coherent where
  idle h := by cases h
  debouncing h := by cases h
  pending h := by cases h
  resolved _ := ⟨rfl, rfl⟩
  final := .inr rfl
  valued _ := hb

theorem fellBack (h : a.Coherent) (hb : a.value.isBlank = false) : a.fellBack.Coherent := by
  by_cases hr : a.resolved.status = .resolved
  · refine ⟨fun hp => ?_, fun hp => ?_, fun hp => ?_, fun _ => ⟨rfl, hr⟩, h.final, fun _ => hb⟩ <;>
      simp [Slot.fellBack, hr] at hp
  · have he : a.resolved = {} := h.final.resolve_right hr
    refine ⟨fun _ => ⟨he, he⟩, fun hp => ?_, fun hp => ?_, fun hp => ?_, h.final, fun _ => hb⟩ <;>
      simp [Slot.fellBack, hr] at hp

end Slot.Coherent

end Formwork
