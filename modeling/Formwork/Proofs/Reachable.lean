import Formwork.Proofs.Soundness

/-!
What an opened session looks like, and hence what holds in every world that a history reaches.
-/

namespace Formwork

/-- Nothing has happened to the slot but that it may have got a value. -/
structure Slot.Fresh (c : Slot) : Prop where
  advisory : c.advisory = {}
  resolved : c.resolved = {}
  phase : c.phase = .idle
  token : c.token = 0
  timer : c.timer = none
  inflight : c.inflight = none

/-- No event has happened yet to the session of a validator. -/
structure Session.Fresh (v : Validator) (s : Session) : Prop where
  validator : s.validator = v
  ids : s.ids = v.schema.ids
  slots : ∀ c ∈ s.slots, c.Fresh
  formTimer : s.formTimer = none
  closed : s.closed = false

namespace Session

variable {v : Validator} {s t : Session}

theorem prefill_ok {id : String} {value : Value} (h : s.prefill id value = .ok t) :
    ∃ a o, s.slot? id = some a ∧ s.validator.validateField id value = .ok o ∧
      t = s.putSlot { a with value, structural := o } := by
  unfold Session.prefill Session.slot at h
  cases ha : s.slot? id with
  | none => simp [ha, bind, Except.bind] at h
  | some a =>
      cases ho : s.validator.validateField id value with
      | error e => simp [ha, ho, bind, Except.bind] at h
      | ok o =>
          simp only [ha, ho, bind, Except.bind, pure, Except.pure, Except.ok.injEq] at h
          exact ⟨a, o, rfl, rfl, h.symm⟩

theorem Fresh.prefill (h : s.Fresh v) {id : String} {value : Value} (ht : s.prefill id value = .ok t) :
    t.Fresh v := by
  obtain ⟨a, o, ha, -, rfl⟩ := prefill_ok ht
  refine ⟨h.validator, (ids_putSlot s _).trans h.ids, fun c hc => ?_, h.formTimer, h.closed⟩
  rcases mem_putSlot hc with rfl | ⟨hc, -⟩
  · have hf := h.slots a (slot?_mem ha)
    exact ⟨hf.advisory, hf.resolved, hf.phase, hf.token, hf.timer, hf.inflight⟩
  · exact h.slots c hc

theorem Fresh.ofValidator {mode : Mode} {cancelStale : Bool} {initial : List (String × Value)}
    (h : Session.ofValidator v mode cancelStale initial = .ok s) : s.Fresh v := by
  have key : ∀ (r : Session), r.Fresh v → initial.foldlM (fun s e => s.prefill e.1 e.2) r = .ok s → s.Fresh v := by
    clear h
    induction initial with
    | nil => exact fun r hr he => Except.ok.inj he ▸ hr
    | cons e es ih =>
        intro r hr he
        rw [List.foldlM_cons] at he
        obtain ⟨r', hp, he⟩ := bind_ok.mp he
        exact ih r' (hr.prefill hp) he
  refine key { validator := v, mode, cancelStale, slots := v.schema.fields.map fun field => { field } } ?_ h
  refine ⟨rfl, ?_, fun c hc => ?_, rfl, rfl⟩
  · rw [Session.ids, List.map_map]
    rfl
  · obtain ⟨f, -, rfl⟩ := List.mem_map.mp hc
    exact ⟨rfl, rfl, rfl, rfl, rfl, rfl⟩

theorem Opened.fresh (h : s.Opened) :
    ∃ schema, Validator.ofSchema schema = .ok s.validator ∧ s.Fresh s.validator := by
  obtain ⟨schema, v, mode, cancelStale, initial, hv, hs⟩ := h
  have hf := Fresh.ofValidator hs
  exact ⟨schema, hf.validator ▸ hv, hf.validator.symm ▸ hf⟩

theorem Opened.nodup (h : s.Opened) : s.ids.Nodup := by
  obtain ⟨schema, hv, hf⟩ := h.fresh
  rw [hf.ids, Validator.ofSchema_schema hv]
  exact Validator.ofSchema_nodup hv

end Session

theorem Slot.Fresh.coherent {c : Slot} (h : c.Fresh) : c.Coherent where
  idle _ := ⟨h.advisory, h.resolved⟩
  debouncing _ := h.advisory.trans h.resolved.symm
  pending hp := by rw [h.phase] at hp; cases hp
  resolved hp := by rw [h.phase] at hp; cases hp
  final := .inl h.resolved
  valued hp := absurd h.phase hp

theorem Session.Opened.sound {s : Session} (h : s.Opened) : World.Sound { session := s } := by
  obtain ⟨schema, hv, hf⟩ := h.fresh
  refine ⟨fun c hc => ?_, by simp, List.nodup_nil, by simp [hf.formTimer], by simp, by simp, by simp, ?_⟩
  · have hc := hf.slots c hc
    exact ⟨hc.coherent, by simp [hc.timer], by simp [hc.timer], by simp [hc.inflight], by simp, by simp,
      by simp, by simp⟩
  · exact ⟨schema, hv, hf.ids.trans (congrArg Schema.ids (Validator.ofSchema_schema hv))⟩

namespace History

variable {ts us : List World.Transition} {w : World} {t : World.Transition}

theorem sound (h : History ts w) : w.Sound := by
  induction h with
  | opened hs => exact hs.sound
  | step _ hs ih => exact hs.sound ih

/-- A history goes on for a list of transitions. -/
theorem prefix_step (h : History (ts ++ t :: us) w) :
    History ts t.before ∧ t.before.Step t.event t.effects t.after ∧ History (ts ++ [t]) t.after := by
  generalize hl : ts ++ t :: us = l at h
  induction h generalizing us with
  | opened hs => simp at hl
  | @step l' v v' event effects hh hs ih =>
      rcases us.eq_nil_or_concat with rfl | ⟨us, u, rfl⟩
      · obtain ⟨rfl, he⟩ := List.append_inj' hl rfl
        obtain rfl : t = ⟨v, event, effects, v'⟩ := by simpa using he
        exact ⟨hh, hs, .step hh hs⟩
      · have hl : (ts ++ t :: us) ++ [u] = l' ++ [⟨v, event, effects, v'⟩] := by simpa using hl
        exact ih (List.append_inj' hl rfl).1

theorem mem_step (h : History ts w) (ht : t ∈ ts) :
    t.before.Sound ∧ t.before.Step t.event t.effects t.after := by
  obtain ⟨us, vs, rfl⟩ := List.append_of_mem ht
  obtain ⟨hb, hs, -⟩ := h.prefix_step
  exact ⟨hb.sound, hs⟩

end History
end Formwork
