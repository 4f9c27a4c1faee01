import Formwork.Proofs.Renaming

/-!
What a session does with one field rests on the slot of that field, on the settings and on the number of the next task.
Two sessions that have these in common, but for the numbers of tasks, do the same with the field.
-/

namespace Formwork

def Slot.rename (ρ : Nat → Nat) (c : Slot) : Slot := { c with timer := c.timer.map ρ, inflight := c.inflight.map ρ }

@[simp] theorem Effect.rename_cancelOf (ρ : Nat → Nat) (task : Option Nat) :
    (Session.cancelOf task).map (Effect.rename ρ) = Session.cancelOf (task.map ρ) := by
  cases task <;> rfl

namespace Session

variable {ρ : Nat → Nat} {f : String} {s t : Session} {a b : Slot} {r r' : Stepped}

/-- The sessions, which evaluate each field on its own, have one field in common. -/
structure Shadows (f : String) (ρ : Nat → Nat) (s t : Session) : Prop where
  slot : s.slot? f = (t.slot? f).map (Slot.rename ρ)
  validator : t.validator = s.validator
  alone : s.mode = .field
  mode : t.mode = s.mode
  cancelStale : t.cancelStale = s.cancelStale
  closed : t.closed = s.closed
  next : ∀ i, ρ (t.nextTask + i) = s.nextTask + i

/-- Steps after which they still have the field in common, and which ask for the same. -/
structure Matches (f : String) (ρ : Nat → Nat) (r r' : Stepped) : Prop where
  session : Shadows f ρ r.1 r'.1
  effects : r.2 = r'.2.map (Effect.rename ρ)

/-- What an edit comes to is determined. -/
theorem Edited.unique {value : Value} (h : Edited s a value r) (h' : Edited s a value r') : r = r' := by
  cases h <;> cases h' <;> simp_all

namespace Shadows

variable (h : Shadows f ρ s t)

include h

theorem quiet : Matches f ρ (s, []) (t, []) := ⟨h, rfl⟩

/-- The slot of the field is replaced, and some tasks are started. -/
theorem put (ha : t.slot? f = some a) (hb : b.field = a.field) (n : Nat) :
    Shadows f ρ { s.putSlot (b.rename ρ) with nextTask := s.nextTask + n }
      { t.putSlot b with nextTask := t.nextTask + n } := by
  obtain rfl := slot?_id ha
  have hid : b.field.id = a.field.id := congrArg (·.id) hb
  have hslot := h.slot
  rw [ha] at hslot
  have hs : s.slot? (b.rename ρ).field.id = some (a.rename ρ) := (congrArg s.slot? hid).trans hslot
  refine ⟨?_, h.validator, h.alone, h.mode, h.cancelStale, h.closed, fun i => ?_⟩
  · have hleft := slot?_putSlot_self hs
    have hright := slot?_putSlot_self (b := b) (hid ▸ ha)
    rw [hid] at hright
    have hleft' : (s.putSlot (b.rename ρ)).slot? a.field.id = some (b.rename ρ) := by
      rw [← hid]
      exact hleft
    exact hleft'.trans (congrArg (Option.map (Slot.rename ρ)) hright).symm
  · rw [Nat.add_assoc, h.next, Nat.add_assoc]

theorem edited {value : Value} (ha : t.slot? f = some a) (hr : Edited s (a.rename ρ) value r)
    (hr' : Edited t a value r') : Matches f ρ r r' := by
  have hschema : t.schema = s.schema := congrArg Validator.schema h.validator
  have hnext : ρ t.nextTask = s.nextTask := h.next 0
  cases hr' with
  | broken e he =>
      obtain rfl := hr.unique (.broken e (h.validator ▸ he))
      exact ⟨h.put (b := { a with value }) ha rfl 0, rfl⟩
  | cleared o ho hb =>
      obtain rfl := hr.unique (.cleared o (h.validator ▸ ho) hb)
      refine ⟨h.put (b := a.cleared value o) ha rfl 0, ?_⟩
      simp [Slot.rename, Effect.rename]
      rfl
  | unadvised o ho hb hadv =>
      obtain rfl := hr.unique (.unadvised o (h.validator ▸ ho) hb (hschema ▸ hadv))
      refine ⟨h.put (b := a.checked value o) ha rfl 0, ?_⟩
      simp [Slot.rename, Effect.rename]
      rfl
  | pausedAlone o ho hb hadv hm =>
      obtain rfl := hr.unique (.pausedAlone o (h.validator ▸ ho) hb (hschema ▸ hadv) (h.mode ▸ hm))
      have hput := h.put (b := a.paused value o (some t.nextTask)) ha rfl 1
      have hslot : (a.paused value o (some t.nextTask)).rename ρ = (a.rename ρ).paused value o (some s.nextTask) := by
        rw [← hnext]
        rfl
      rw [hslot] at hput
      refine ⟨hput, ?_⟩
      simp [Slot.rename, Effect.rename, hnext]
      rfl
  | pausedTogether o ho hb hadv hm =>
      rw [h.mode, h.alone] at hm
      cases hm

theorem edit (value : Value) : Matches f ρ (s.edit f value).1 (t.edit f value).1 := by
  rcases t.edit_cases f value with ⟨ht, hrefused⟩ | ⟨a, ha, hopen, hr'⟩
  · rcases s.edit_cases f value with ⟨hs, -⟩ | ⟨b, hb, hopen, -⟩
    · rw [hs, ht]
      exact h.quiet
    · rw [h.slot] at hb
      rcases hrefused with hclosed | hnone
      · rw [h.closed, hopen] at hclosed
        cases hclosed
      · rw [hnone] at hb
        cases hb
  · have hs : s.slot? f = some (a.rename ρ) := by rw [h.slot, ha]; rfl
    rcases s.edit_cases f value with ⟨-, hclosed | hnone⟩ | ⟨b, hb, -, hr⟩
    · rw [← h.closed, hopen] at hclosed
      cases hclosed
    · rw [hs] at hnone
      cases hnone
    · obtain rfl := Option.some.inj (hs.symm.trans hb)
      exact h.edited ha hr hr'

theorem fieldTimerFires : Matches f ρ (s.fieldTimerFires f) (t.fieldTimerFires f) := by
  cases ha : t.slot? f with
  | none =>
      have hs : s.slot? f = none := by rw [h.slot, ha]; rfl
      rw [Session.fieldTimerFires, Session.fieldTimerFires, ha, hs]
      exact h.quiet
  | some a =>
      have hs : s.slot? f = some (a.rename ρ) := by rw [h.slot, ha]; rfl
      have hnext : ρ t.nextTask = s.nextTask := h.next 0
      rw [fieldTimerFires_some ha, fieldTimerFires_some hs, dispatch_untimed ha, dispatch_untimed hs]
      have hput := h.put (b := ({ a with timer := none } : Slot).requested t.nextTask) ha rfl 1
      have hslot : (({ a with timer := none } : Slot).requested t.nextTask).rename ρ =
          ({ a.rename ρ with timer := none } : Slot).requested s.nextTask := by
        rw [← hnext]
        rfl
      rw [hslot] at hput
      refine ⟨hput, ?_⟩
      rw [h.cancelStale]
      cases s.cancelStale <;> simp [Slot.rename, Effect.rename, hnext] <;> rfl

theorem settle (hρ : Function.Injective ρ) (task token : Nat) (requested : Value) (ending : Ending) :
    Matches f ρ (s.settle (ρ task) f token requested ending) (t.settle task f token requested ending) := by
  cases ha : t.slot? f with
  | none =>
      have hs : s.slot? f = none := by rw [h.slot, ha]; rfl
      rw [settle_none ha, settle_none hs]
      exact h.quiet
  | some a =>
      have hs : s.slot? f = some (a.rename ρ) := by rw [h.slot, ha]; rfl
      have hforget : forget (a.rename ρ) (ρ task) = (forget a task).rename ρ := by
        by_cases hi : a.inflight = some task
        · simp [forget, Slot.rename, hi]
        · have hi' : a.inflight.map ρ ≠ some (ρ task) := fun he => by
            obtain ⟨k, hk, hsame⟩ := Option.map_eq_some_iff.mp he
            exact hi (hk.trans (congrArg some (hρ hsame)))
          simp [forget, Slot.rename, hi, hi']
      have hfield := forget_field a task
      have hcurrent : isCurrent ((forget a task).rename ρ) token requested = isCurrent (forget a task) token requested :=
        rfl
      have hdropped : Matches f ρ (s.putSlot ((forget a task).rename ρ), []) (t.putSlot (forget a task), []) :=
        ⟨h.put ha hfield 0, rfl⟩
      simp only [Session.settle, ha, hs, hforget, hcurrent]
      cases ending with
      | cancelled => exact hdropped
      | failed =>
          simp only
          split
          · rw [fallBack_putSlot, fallBack_putSlot]
            exact ⟨h.put (b := (forget a task).fellBack) ha hfield 0, rfl⟩
          · exact hdropped
      | findings found =>
          simp only
          split
          · rw [commit_putSlot, commit_putSlot]
            exact ⟨h.put (b := (forget a task).committed found) ha hfield 0, rfl⟩
          · exact hdropped

end Shadows

end Session
end Formwork
