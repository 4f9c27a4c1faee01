import Formwork.Proofs.Deliveries
import Formwork.Proofs.Played

/-!
States that announce a request. Each step of a session shows a pending field exactly for each request that it issues,
as long as the fields with values have the outcomes for them.
-/

namespace Formwork

/-- The value whose evaluation the state announces. -/
def FieldState.request? (state : FieldState) : Option (String × Value) :=
  if state.phase = .pending then some (state.field.id, state.value) else none

namespace Effect

@[simp] theorem shows_cancels (ks : List Nat) : shows (ks.map .cancel) = [] := by
  induction ks with
  | nil => rfl
  | cons k ks ih => exact ih

@[simp] theorem shows_shows (states : List FieldState) : shows (states.map .show) = states := by
  induction states with
  | nil => rfl
  | cons state states ih => exact congrArg (state :: ·) ih

/-- What the states that are to be shown announce. -/
def announced (effects : List Effect) : List (String × Value) := (shows effects).filterMap FieldState.request?

@[simp] theorem announced_nil : announced [] = [] := rfl

@[simp] theorem announced_start (task : Nat) (job : Job) (effects : List Effect) :
    announced (.start task job :: effects) = announced effects := rfl

@[simp] theorem announced_show (state : FieldState) (effects : List Effect) :
    announced (.show state :: effects) = state.request?.toList ++ announced effects := by
  cases h : state.request? <;> simp [announced, h]

@[simp] theorem announced_append (xs ys : List Effect) : announced (xs ++ ys) = announced xs ++ announced ys := by
  simp [announced]

@[simp] theorem announced_cancelOf (task : Option Nat) : announced (Session.cancelOf task) = [] := by
  simp [announced]

@[simp] theorem requests_nil : requests [] = [] := rfl

@[simp] theorem requests_start (task : Nat) (job : Job) (effects : List Effect) :
    requests (.start task job :: effects) = (Work.job job).request?.toList ++ requests effects := by
  cases h : (Work.job job).request? <;> simp [requests, h]

@[simp] theorem requests_show (state : FieldState) (effects : List Effect) :
    requests (.show state :: effects) = requests effects := rfl

@[simp] theorem requests_append (xs ys : List Effect) : requests (xs ++ ys) = requests xs ++ requests ys := by
  simp [requests]

@[simp] theorem requests_cancelOf (task : Option Nat) : requests (Session.cancelOf task) = [] := by
  simp [requests]

end Effect

/-- A value has the outcome that its check comes to, if it comes to one. -/
def Slot.Verified (v : Validator) (c : Slot) : Prop :=
  c.value.isBlank = false → ∀ o, v.validateField c.field.id c.value = .ok o → c.structural = o

namespace Session

variable {s : Session} {a b : Slot} {id : String} {r : Stepped}

def Verified (s : Session) : Prop := ∀ c ∈ s.slots, c.Verified s.validator

/-- Nothing goes on in a form without advice. -/
def Hushed (s : Session) : Prop := s.schema.advisoryEnabled = false → ∀ c ∈ s.slots, c.phase = .idle

/-- The step announces what it requests. -/
structure Faithful (s : Session) (r : Stepped) : Prop where
  announced : Effect.announced r.2 = Effect.requests r.2
  verified : s.Verified → r.1.Verified
  hushed : s.Hushed → r.1.Hushed
  validator : r.1.validator = s.validator

/-- A step that leaves the slots alone. -/
theorem faithful_same (hslots : r.1.slots = s.slots) (hval : r.1.validator = s.validator)
    (hann : Effect.announced r.2 = Effect.requests r.2) : s.Faithful r := by
  refine ⟨hann, fun hv => ?_, fun hq => ?_, hval⟩
  · rwa [Verified, hslots, hval]
  · rwa [Hushed, hslots, schema, hval]

theorem faithful_nothing (s : Session) : s.Faithful (s, []) := faithful_same rfl rfl rfl

/-- A step that puts a slot in place. -/
theorem faithful_put (ha : a ∈ s.slots) (hslots : r.1.slots = (s.putSlot b).slots)
    (hval : r.1.validator = s.validator) (hverified : a.Verified s.validator → b.Verified s.validator)
    (hphase : s.schema.advisoryEnabled = false → a.phase = .idle → b.phase = .idle)
    (hann : Effect.announced r.2 = Effect.requests r.2) : s.Faithful r := by
  refine ⟨hann, fun hv c hc => ?_, fun hq hadv c hc => ?_, hval⟩
  · rw [hslots] at hc
    rw [hval]
    rcases mem_putSlot hc with rfl | ⟨hc, -⟩
    · exact hverified (hv a ha)
    · exact hv c hc
  · rw [hslots] at hc
    rw [schema, hval] at hadv
    rcases mem_putSlot hc with rfl | ⟨hc, -⟩
    · exact hphase hadv (hq hadv a ha)
    · exact hq hadv c hc

/-- A step that puts a slot in place, in a form with advice. -/
theorem faithful_advised (hadv : s.schema.advisoryEnabled) (ha : a ∈ s.slots) (hslots : r.1.slots = (s.putSlot b).slots)
    (hval : r.1.validator = s.validator) (hverified : a.Verified s.validator → b.Verified s.validator)
    (hann : Effect.announced r.2 = Effect.requests r.2) : s.Faithful r := by
  refine faithful_put ha hslots hval hverified (fun hn => ?_) hann
  cases hadv.symm.trans hn

/-! ## Edits -/

/-- An edit requests nothing, and shows no pending field. -/
theorem Edited.faithful {value : Value} (hq : s.Hushed) (ha : a ∈ s.slots) (h : Edited s a value r) :
    s.Faithful r ∧ Effect.requests r.2 = [] := by
  have checked {b : Slot} {o : Outcome} (ho : s.validator.validateField a.field.id value = .ok o)
      (hf : b.field = a.field) (hb : b.value = value) (hs : b.structural = o) : b.Verified s.validator := by
    intro _ o' ho'
    rw [hf, hb, ho] at ho'
    exact hs.trans (Except.ok.inj ho')
  cases h with
  | broken e he =>
      refine ⟨faithful_put (b := { a with value }) ha rfl rfl (fun _ _ o ho => ?_) (fun _ hp => hp) rfl, rfl⟩
      cases he.symm.trans ho
  | cleared o ho hb =>
      have hshow : (a.cleared value o).state.request? = none := rfl
      exact ⟨faithful_put ha rfl rfl (fun _ => checked ho rfl rfl rfl) (fun _ _ => rfl) (by simp [hshow]), by simp⟩
  | unadvised o ho hb hadv =>
      have hshow : (a.checked value o).state.request? = none :=
        if_neg (by simp [Slot.state, Slot.checked, hq hadv a ha])
      exact ⟨faithful_put ha rfl rfl (fun _ => checked ho rfl rfl rfl) (fun _ hp => hp) (by simp [hshow]), by simp⟩
  | pausedAlone o ho hb hadv hm =>
      have hshow : (a.paused value o (some s.nextTask)).state.request? = none := rfl
      exact ⟨faithful_advised (b := a.paused value o (some s.nextTask)) hadv ha rfl rfl
        (fun _ => checked ho rfl rfl rfl) (by simp [hshow, Work.request?]), by simp [Work.request?]⟩
  | pausedTogether o ho hb hadv hm =>
      have hshow : (a.paused value o none).state.request? = none := rfl
      exact ⟨faithful_advised (b := a.paused value o none) hadv ha rfl rfl (fun _ => checked ho rfl rfl rfl)
        (by simp [hshow, Work.request?]), by simp [Work.request?]⟩

theorem edit_faithful (hq : s.Hushed) (id : String) (value : Value) :
    s.Faithful (s.edit id value).1 ∧ Effect.requests (s.edit id value).1.2 = [] := by
  rcases s.edit_cases id value with ⟨he, -⟩ | ⟨a, ha, -, he⟩
  · rw [he]
    exact ⟨s.faithful_nothing, rfl⟩
  · exact he.faithful hq (slot?_mem ha)

/-! ## Requests -/

/-- The field with slot `a` is shown as pending, and the evaluation of its value is started. -/
theorem faithful_request (ha : a ∈ s.slots) (hadv : s.schema.advisoryEnabled) (timer : Option Nat) (task : Nat)
    (stopped : Option Nat) (hslots : r.1.slots = (s.putSlot (({ a with timer } : Slot).requested task)).slots)
    (hval : r.1.validator = s.validator) {inflight : Option Nat}
    (heffects : r.2 = cancelOf stopped ++ ((if s.cancelStale then cancelOf inflight else []) ++
      [.start task (.evaluation a.field.id (a.token + 1) a.value),
        .show (({ a with timer } : Slot).requested task).state])) : s.Faithful r := by
  have hshow : (({ a with timer } : Slot).requested task).state.request? = some (a.field.id, a.value) := rfl
  refine faithful_advised hadv ha hslots hval (fun hv => hv) ?_
  rw [heffects]
  cases s.cancelStale <;> simp [hshow, Work.request?]

theorem dispatch_faithful (hadv : s.schema.advisoryEnabled) (id : String) : s.Faithful (s.dispatch id) := by
  cases ha : s.slot? id with
  | none => exact dispatch_none ha ▸ s.faithful_nothing
  | some a =>
      rw [dispatch_some ha]
      exact faithful_request (slot?_mem ha) hadv a.timer s.nextTask none rfl rfl rfl

theorem fieldTimerFires_faithful (hadv : s.schema.advisoryEnabled) (id : String) :
    s.Faithful (s.fieldTimerFires id) := by
  cases ha : s.slot? id with
  | none => simpa [fieldTimerFires, ha] using s.faithful_nothing
  | some a =>
      rw [fieldTimerFires_some ha, dispatch_untimed ha]
      exact faithful_request (slot?_mem ha) hadv none s.nextTask none rfl rfl rfl

theorem dispatchIfValued_faithful (hadv : s.schema.advisoryEnabled) (id : String) :
    s.Faithful (s.dispatchIfValued id) := by
  rcases s.dispatchIfValued_cases id with ⟨he, -⟩ | ⟨a, -, -, he⟩
  · exact he ▸ s.faithful_nothing
  · exact he ▸ dispatch_faithful hadv id

/-- Without advice no field is in its pause. -/
theorem dispatchIfPausing_faithful (hq : s.Hushed) (id : String) : s.Faithful (s.dispatchIfPausing id) := by
  rcases s.dispatchIfPausing_cases id with ⟨he, -⟩ | ⟨a, ha, hp, he⟩
  · exact he ▸ s.faithful_nothing
  · have hadv : s.schema.advisoryEnabled := by
      by_contra hn
      rw [hq (Bool.eq_false_iff.mpr hn) a (slot?_mem ha)] at hp
      cases hp
    rw [he, dispatch_untimed ha]
    exact faithful_request (slot?_mem ha) hadv none s.nextTask a.timer rfl rfl rfl

/-! ## Other steps -/

theorem settle_faithful (hadv : s.schema.advisoryEnabled) (task : Nat) (id : String) (token : Nat) (requested : Value)
    (ending : Ending) : s.Faithful (s.settle task id token requested ending) := by
  cases ha : s.slot? id with
  | none => exact settle_none ha .. ▸ s.faithful_nothing
  | some a =>
      obtain ⟨-, hvalue, -, -, -, -⟩ := forget_same a task
      have same {b : Slot} (hf : b.field = (forget a task).field) (hb : b.value = (forget a task).value)
          (hs : b.structural = (forget a task).structural) (hv : a.Verified s.validator) : b.Verified s.validator := by
        intro hn o ho
        rw [hb, hvalue] at hn
        rw [hf, forget_field, hb, hvalue] at ho
        rw [hs, forget_structural, hv hn o ho]
      have hset := settle_some ha task token requested ending
      generalize s.settle task id token requested ending = r at hset
      cases hset with
      | dropped => exact faithful_advised hadv (slot?_mem ha) rfl rfl (same rfl rfl rfl) rfl
      | committed found =>
          exact faithful_advised (b := (forget a task).committed found) hadv (slot?_mem ha) rfl rfl (same rfl rfl rfl)
            rfl
      | fellBack =>
          have hphase : (forget a task).fellBack.phase ≠ .pending := by
            simp only [Slot.fellBack]
            split <;> simp
          have hshow : (forget a task).fellBack.state.request? = none := if_neg hphase
          exact faithful_advised (b := (forget a task).fellBack) hadv (slot?_mem ha) rfl rfl (same rfl rfl rfl)
            (by simp [hshow])

theorem beginFlush_faithful (s : Session) : s.Faithful s.beginFlush :=
  faithful_same rfl rfl (by simp [beginFlush])

theorem formTimerFires_faithful (s : Session) : s.Faithful s.formTimerFires := faithful_same rfl rfl rfl

theorem close_faithful (s : Session) : s.Faithful s.close :=
  faithful_same rfl rfl (by simp [close, Effect.announced, Effect.requests])

/-- An outcome is recorded that is the one for the value of the field. -/
theorem recordOutcome_faithful {o : Outcome} (hv : s.Verified)
    (hvalued : ∀ c ∈ s.slots, c.phase = .pending → c.value.isBlank = false)
    (ho : ∀ c, s.slot? id = some c → s.validator.validateField id c.value = .ok o) :
    s.Faithful (s.recordOutcome id o) := by
  cases ha : s.slot? id with
  | none => simpa only [recordOutcome, ha] using s.faithful_nothing
  | some a =>
      obtain rfl := slot?_id ha
      have hout := ho a ha
      rw [recordOutcome_some ha]
      split
      · exact s.faithful_nothing
      · next hn =>
          -- A pending field has a value, and so the outcome for it already.
          have hphase : a.phase ≠ .pending := fun hp =>
            hn (hv a (slot?_mem ha) (hvalued a (slot?_mem ha) hp) o hout).symm
          have hshow : ({ a with structural := o } : Slot).state.request? = none := if_neg hphase
          refine faithful_put (slot?_mem ha) rfl rfl (fun _ _ o' ho' => ?_) (fun _ hp => hp) (by simp [hshow])
          exact Except.ok.inj (hout.symm.trans ho')

end Session
end Formwork
