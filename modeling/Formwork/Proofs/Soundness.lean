import Formwork.Proofs.Equality
import Formwork.Proofs.Replacement

/-!
Every world that a history reaches is sound: each operation keeps soundness, hence each event does.
-/

namespace Formwork

namespace World.Sound

open Session

variable {w : World} {a : Slot}

theorem blank_checked (h : w.Sound) (ha : w.session.slot? a.field.id = some a) {value : Value}
    (hb : value.isBlank) : ∃ o, w.session.validator.validateField a.field.id value = .ok o := by
  obtain ⟨schema, hv, hi⟩ := h.compiled
  exact Validator.validateField_of_blank hv (hi ▸ slot?_isSome_iff.mp ⟨a, ha⟩) hb

/-- A value whose check breaks off is not blank. -/
theorem valued_of_broken (h : w.Sound) (ha : w.session.slot? a.field.id = some a) {value : Value} {e : Fault}
    (he : w.session.validator.validateField a.field.id value = .error e) : value.isBlank = false := by
  refine Bool.eq_false_iff.mpr fun hb => ?_
  obtain ⟨o, ho⟩ := h.blank_checked ha hb
  cases he.symm.trans ho

theorem started_cancelOf (t : Option Nat) (fx : List Effect) :
    (cancelOf t ++ fx).filterMap Effect.started? = fx.filterMap Effect.started? := by
  cases t <;> rfl

theorem edited (h : w.Sound) (ha : w.session.slot? a.field.id = some a) {value : Value} {s : Stepped}
    (he : Edited w.session a value s) : (w.absorb s).Sound := by
  have hs := h.slot a (slot?_mem ha)
  cases he with
  | broken e he =>
      have hb := h.valued_of_broken ha he
      have t : w.Touch { a with value } none (w.session.putSlot { a with value }, []) := ⟨rfl, rfl, rfl, rfl⟩
      refine t.sound h (t.slot_sound h hs ?_) (by simp) (.inl ⟨rfl, by simp⟩) (by simp)
      exact {
        field := rfl, coherent := hs.coherent.with_value hb, timed := fun _ => hb
        timer := fun k hk => .inl hk, inflight := fun k hk => .inl hk
        ticking := fun e _ ht => .inr ht
        new_timer := by simp
        token_le := Nat.le_refl _
        new_token := by simp }
  | cleared o ho hb =>
      have t : w.Touch (a.cleared value o) none (w.session.putSlot (a.cleared value o),
          cancelOf a.timer ++ cancelOf a.inflight ++ [.show (a.cleared value o).state]) :=
        ⟨rfl, rfl, rfl, by rw [List.append_assoc, started_cancelOf, started_cancelOf]; rfl⟩
      refine t.sound h (t.slot_sound h hs ?_) (by simp) (.inl ⟨rfl, by simp⟩) (by simp)
      exact {
        field := rfl, coherent := .cleared a value o
        timed := by simp [Slot.cleared]
        timer := by simp [Slot.cleared]
        inflight := by simp [Slot.cleared]
        ticking := fun e _ ht => .inl (by simp [ht])
        new_timer := by simp
        token_le := Nat.le_succ _
        new_token := by simp }
  | unadvised o ho hb hadv =>
      have t : w.Touch (a.checked value o) none (w.session.putSlot (a.checked value o),
          cancelOf a.timer ++ [.show (a.checked value o).state]) :=
        ⟨rfl, rfl, rfl, by rw [started_cancelOf]; rfl⟩
      refine t.sound h (t.slot_sound h hs ?_) (by simp) (.inl ⟨rfl, by simp⟩) (by simp)
      exact {
        field := rfl, coherent := hs.coherent.checked hb o, timed := fun _ => hb
        timer := by simp [Slot.checked]
        inflight := fun k hk => .inl hk
        ticking := fun e _ ht => .inl (by simp [ht])
        new_timer := by simp
        token_le := Nat.le_refl _
        new_token := by simp }
  | pausedAlone o ho hb hadv hm =>
      have t : w.Touch (a.paused value o (some w.session.nextTask)) (some (.fieldTimer a.field.id))
          ({ w.session.putSlot (a.paused value o (some w.session.nextTask)) with
              nextTask := w.session.nextTask + 1 },
            cancelOf a.timer ++ [.start w.session.nextTask (.fieldTimer a.field.id),
              .show (a.paused value o (some w.session.nextTask)).state]) :=
        ⟨rfl, rfl, rfl, by rw [started_cancelOf]; rfl⟩
      refine t.sound h (t.slot_sound h hs ?_) (by simp [Job.field?, Slot.paused]) (.inl ⟨rfl, by simp⟩) (by simp)
      exact {
        field := rfl, coherent := hs.coherent.paused hb o _, timed := fun _ => hb
        timer := fun k hk => .inr ⟨(Option.some.inj hk).symm, rfl⟩
        inflight := fun k hk => .inl hk
        ticking := fun e _ ht => .inl (by simp [ht])
        new_timer := fun _ _ => rfl
        token_le := Nat.le_refl _
        new_token := by simp }
  | pausedTogether o ho hb hadv hm =>
      have t : w.Touch (a.paused value o none) (some .formTimer)
          ({ w.session.putSlot (a.paused value o none) with
              formTimer := some w.session.nextTask, nextTask := w.session.nextTask + 1 },
            cancelOf a.timer ++ (cancelOf w.session.formTimer ++ [.start w.session.nextTask .formTimer,
              .show (a.paused value o none).state])) :=
        ⟨rfl, rfl, rfl, by rw [started_cancelOf, started_cancelOf]; rfl⟩
      refine t.sound h (t.slot_sound h hs ?_) (by simp [Job.field?]) (.inr ⟨rfl, rfl⟩) (by simp)
      exact {
        field := rfl, coherent := hs.coherent.paused hb o _, timed := fun _ => hb
        timer := by simp [Slot.paused]
        inflight := fun k hk => .inl hk
        ticking := fun e _ ht => .inl (by simp [ht])
        new_timer := by simp
        token_le := Nat.le_refl _
        new_token := by simp }

/-- A request for a field with a value, which may take the field's timer away if it cannot go off. -/
theorem asked (h : w.Sound) (ha : w.session.slot? a.field.id = some a) (hb : a.value.isBlank = false)
    {t : Option Nat} {fx : List Effect} (ht : ∀ k, t = some k → a.timer = some k)
    (hfx : fx.filterMap Effect.started? =
      [{ id := w.session.nextTask, job := .evaluation a.field.id (a.token + 1) a.value }])
    (hk : ∀ e ∈ w.errands, a.timer = some e.id → fx.any (·.cancels e.id) ∨ t = some e.id) :
    (w.absorb ({ w.session.putSlot (({ a with timer := t } : Slot).requested w.session.nextTask) with
      nextTask := w.session.nextTask + 1 }, fx)).Sound := by
  have hs := h.slot a (slot?_mem ha)
  have p : w.Touch (({ a with timer := t } : Slot).requested w.session.nextTask)
      (some (.evaluation a.field.id (a.token + 1) a.value))
      ({ w.session.putSlot (({ a with timer := t } : Slot).requested w.session.nextTask) with
        nextTask := w.session.nextTask + 1 }, fx) := ⟨rfl, rfl, rfl, hfx⟩
  refine p.sound h (p.slot_sound h hs ?_) (by simp [Job.field?, Slot.requested]) (.inl ⟨rfl, by simp⟩) ?_
  · exact {
      field := rfl
      coherent := (hs.coherent.with_timer t).requested hb _
      timed := fun _ => hb
      timer := fun k hk => .inl (ht k hk)
      inflight := fun k hk => .inr ⟨(Option.some.inj hk).symm, _, _, rfl⟩
      ticking := hk
      new_timer := by simp
      token_le := Nat.le_succ _
      new_token := fun f token v he => by cases he; exact Nat.le_refl _ }
  · intro token v he
    simp only [Option.some.injEq, Job.evaluation.injEq] at he
    obtain ⟨-, rfl, rfl⟩ := he
    refine ⟨hb, fun e hm v' hj => ?_⟩
    exact absurd (hs.token_le e hm _ v' hj) (Nat.not_succ_le_self _)

theorem settled (h : w.Sound) (ha : w.session.slot? a.field.id = some a) {task token : Nat} {requested : Value}
    {ending : Ending} {s : Stepped} (hb : requested.isBlank = false)
    (he : Settled w.session a task token requested ending s) : (w.absorb s).Sound := by
  have hs := h.slot a (slot?_mem ha)
  obtain ⟨htimer, hvalue, htoken, -⟩ := forget_same a task
  -- Only the coherence of the slot differs between the cases.
  have key : ∀ b : Slot, b.Coherent → b.field = a.field → b.timer = a.timer → b.value = a.value →
      b.token = a.token → b.inflight = (forget a task).inflight → ∀ fx : List Effect,
      fx.filterMap Effect.started? = [] → (w.absorb (w.session.putSlot b, fx)).Sound := by
    intro b hc hfield htimer hvalue htoken hinflight fx hfx
    have t : w.Touch b none (w.session.putSlot b, fx) := ⟨rfl, rfl, rfl, hfx⟩
    refine t.sound h (t.slot_sound h hs ?_) (by simp) (.inl ⟨rfl, by simp⟩) (by simp)
    exact {
      field := hfield, coherent := hc
      timed := by rw [htimer, hvalue]; exact hs.timed
      timer := fun k hk => .inl (htimer ▸ hk)
      inflight := fun k hk => .inl (forget_inflight (hinflight ▸ hk))
      ticking := fun e _ ht => .inr (htimer ▸ ht)
      new_timer := by simp
      token_le := Nat.le_of_eq htoken.symm
      new_token := by simp }
  have valued : isCurrent (forget a task) token requested → (forget a task).value.isBlank = false :=
    fun hcur => Value.isBlank_of_eqv (isCurrent_iff.mp hcur).2 ▸ hb
  cases he with
  | dropped _ _ =>
      exact key _ (hs.coherent.forget task) (forget_field a task) htimer hvalue htoken rfl _ rfl
  | committed found hcur =>
      exact key _ (.committed (valued hcur) found) (forget_field a task) htimer hvalue htoken rfl _ rfl
  | fellBack hcur =>
      exact key _ ((hs.coherent.forget task).fellBack (valued hcur)) (forget_field a task) htimer hvalue
        htoken rfl _ rfl

theorem recorded (h : w.Sound) (ha : w.session.slot? a.field.id = some a) (o : Outcome) :
    (w.absorb (w.session.putSlot { a with structural := o },
      [.show ({ a with structural := o } : Slot).state])).Sound := by
  have hs := h.slot a (slot?_mem ha)
  have t : w.Touch { a with structural := o } none (w.session.putSlot { a with structural := o },
      [.show ({ a with structural := o } : Slot).state]) := ⟨rfl, rfl, rfl, rfl⟩
  refine t.sound h (t.slot_sound h hs ?_) (by simp) (.inl ⟨rfl, by simp⟩) (by simp)
  exact {
    field := rfl, coherent := hs.coherent.with_outcome o, timed := hs.timed
    timer := fun k hk => .inl hk, inflight := fun k hk => .inl hk
    ticking := fun e _ ht => .inr ht
    new_timer := by simp
    token_le := Nat.le_refl _
    new_token := by simp }

theorem unmoved (h : w.Sound) : (w.absorb (w.session, [])).Sound :=
  h.cancelled rfl rfl rfl (fun _ hk => hk) rfl

/-- The effects of a request, apart from the task that it starts. -/
theorem started_request (c : Bool) (t : Option Nat) (task : Nat) (job : Job) (state : FieldState) :
    ((if c then cancelOf t else []) ++ [Effect.start task job, Effect.show state]).filterMap Effect.started? =
      [{ id := task, job }] := by
  cases c with
  | true => rw [if_pos rfl, started_cancelOf]; rfl
  | false => rfl

theorem visited (h : w.Sound) (v : Visit) : (w.absorb (v.step w.session)).Sound := by
  cases v with
  | valued id =>
      rcases dispatchIfValued_cases w.session id with ⟨he, -⟩ | ⟨a, ha, hb, he⟩ <;> rw [Visit.step, he]
      · exact h.unmoved
      · obtain rfl := slot?_id ha
        rw [dispatch_some ha]
        exact h.asked (t := a.timer) ha hb (fun _ hk => hk) (started_request ..) (fun e _ ht => .inr ht)
  | pausing id =>
      rcases dispatchIfPausing_cases w.session id with ⟨he, -⟩ | ⟨a, ha, hp, he⟩ <;> rw [Visit.step, he]
      · exact h.unmoved
      · obtain rfl := slot?_id ha
        have hb := (h.slot a (slot?_mem ha)).coherent.valued (by rw [hp]; decide)
        rw [dispatch_untimed ha]
        refine h.asked (t := none) ha hb (by simp) ?_ (fun e _ ht => .inl ?_)
        · rw [started_cancelOf, started_request]
        · simp [ht]
  | outcome id o =>
      rcases recordOutcome_cases w.session id o with he | ⟨a, ha, he⟩ <;> rw [Visit.step, he]
      · exact h.unmoved
      · exact h.recorded (slot?_id ha ▸ ha) o

/-- The pause after an edit of a field is over, and its task is gone. -/
theorem fired (h : w.Sound) {e : Errand} {id : String} (he : e ∈ w.errands) (hj : e.job = .fieldTimer id)
    (hc : e.cancelled = false) : ((w.without e.id).absorb (w.session.fieldTimerFires id)).Sound := by
  cases ha : w.session.slot? id with
  | none =>
      have hf : w.session.fieldTimerFires id = (w.session, []) := by simp [fieldTimerFires, ha]
      exact hf ▸ (h.without e.id).unmoved
  | some a =>
      obtain rfl := slot?_id ha
      have hs := h.slot a (slot?_mem ha)
      have ht := hs.ticking e he hj hc
      rw [fieldTimerFires_some ha, dispatch_untimed ha]
      refine (h.without e.id).asked (t := none) ha (hs.timed (by rw [ht]; rfl)) (by simp) (started_request ..) ?_
      intro x hx hk
      rw [ht, Option.some.injEq] at hk
      exact absurd hk.symm (mem_without.mp hx).2

end World.Sound

/-- Every event keeps a world sound. -/
theorem World.Step.sound {w w' : World} {event : World.Event} {fx : List Effect} (hs : w.Step event fx w')
    (h : w.Sound) : w'.Sound := by
  cases hs with
  | edit id value =>
      rcases Session.edit_cases w.session id value with ⟨he, -⟩ | ⟨a, ha, -, he⟩
      · exact he ▸ h.unmoved
      · exact h.edited (Session.slot?_id ha ▸ ha) he
  | flush =>
      refine (h.with_visits _).cancelled rfl rfl rfl (by simp [Session.beginFlush]) ?_
      simpa [Session.beginFlush] using World.Sound.started_cancelOf w.session.formTimer []
  | validateAll => exact h.with_visits _
  | validateNone => exact h
  | close =>
      refine h.cancelled rfl rfl rfl (fun _ hk => hk) ?_
      simp [Session.close, List.filterMap_map, Function.comp_def, Effect.started?]
  | visit v rest => exact (h.with_visits rest).visited v
  | begin e => exact h.markBegun e.id
  | fieldPauseOver e id _ he hj _ hc => exact h.fired he hj hc
  | formPauseOver e =>
      exact (h.without e.id).later rfl rfl (Nat.le_refl _) (by simp [Session.formTimerFires])
        (fun x hm => ⟨x, hm, .refl x⟩) (h.without e.id).distinct
  | answer e id token requested ending _ he hj =>
      cases ha : w.session.slot? id with
      | none => exact Session.settle_none ha .. ▸ (h.without e.id).unmoved
      | some a =>
          exact (h.without e.id).settled (Session.slot?_id ha ▸ ha) (h.valued e he id token requested hj)
            (Session.settle_some ha ..)
  | vanish e => exact h.without e.id
  | otherTask =>
      exact h.later rfl rfl (Nat.le_succ _) (fun _ hk => hk) (fun x hm => ⟨x, hm, .refl x⟩) h.distinct

end Formwork
