import Formwork.Session
import Mathlib.Data.List.Nodup

/-!
What each operation of a session does to the slot of its field, said once for every operation. All later
proofs rest on these equations and do not open the operations again.
-/

namespace Formwork

namespace Slot

/-- The slot after a checked edit, before anything is scheduled. -/
def checked (a : Slot) (value : Value) (structural : Outcome) : Slot :=
  { a with value, structural, timer := none }

/-- The slot after a blank value: no request is valid any more, and no result is kept. -/
def cleared (a : Slot) (value : Value) (structural : Outcome) : Slot :=
  { a with
    value, structural
    timer := none, token := a.token + 1, inflight := none
    advisory := {}, resolved := {}, phase := .idle }

/-- The slot after a value that is to be evaluated when the pause is over. -/
def paused (a : Slot) (value : Value) (structural : Outcome) (timer : Option Nat) : Slot :=
  { a with value, structural, timer, advisory := a.resolved, phase := .debouncing }

/-- The slot after a request, which a task carries out. -/
def requested (a : Slot) (task : Nat) : Slot :=
  { a with
    token := a.token + 1, phase := .pending, advisory := { a.advisory with status := .pending }
    inflight := some task }

def committed (a : Slot) (found : List Finding) : Slot :=
  { a with advisory := ⟨.resolved, found⟩, resolved := ⟨.resolved, found⟩, phase := .resolved }

def fellBack (a : Slot) : Slot :=
  { a with
    advisory := a.resolved
    phase := if a.resolved.status = .resolved then .resolved else .idle }

end Slot

namespace Session

variable {s : Session} {a b c : Slot} {id : String}

theorem slot?_mem (h : s.slot? id = some a) : a ∈ s.slots := List.mem_of_find?_eq_some h

theorem slot?_id (h : s.slot? id = some a) : a.field.id = id := by
  simpa using List.find?_some h

theorem mem_putSlot (h : c ∈ (s.putSlot b).slots) : c = b ∨ c ∈ s.slots ∧ c.field.id ≠ b.field.id := by
  obtain ⟨t, ht, he⟩ := List.mem_map.mp h
  split at he
  · exact .inl he.symm
  · next hn => exact .inr (he ▸ ⟨ht, hn⟩)

theorem ids_putSlot (s : Session) (b : Slot) : (s.putSlot b).ids = s.ids := by
  simp only [ids, putSlot, List.map_map]
  refine List.map_congr_left fun t _ => ?_
  by_cases h : t.field.id = b.field.id <;> simp [h]

theorem putSlot_putSlot (s : Session) (h : b.field.id = c.field.id) :
    (s.putSlot b).putSlot c = s.putSlot c := by
  simp only [putSlot, List.map_map]
  congr 1
  refine List.map_congr_left fun t _ => ?_
  by_cases ht : t.field.id = c.field.id <;> simp [h, ht]

theorem slot?_putSlot_of_ne (s : Session) (h : b.field.id ≠ id) : (s.putSlot b).slot? id = s.slot? id := by
  simp only [slot?, putSlot]
  induction s.slots with
  | nil => rfl
  | cons t ts ih =>
      rw [List.map_cons, List.find?_cons, List.find?_cons, ih]
      by_cases ht : t.field.id = b.field.id
      · have hn : t.field.id ≠ id := fun he => h (ht ▸ he)
        simp [ht, h]
      · simp [ht]

theorem slot?_putSlot_self (h : s.slot? b.field.id = some a) : (s.putSlot b).slot? b.field.id = some b := by
  simp only [slot?, putSlot] at h ⊢
  generalize s.slots = slots at h ⊢
  induction slots with
  | nil => simp at h
  | cons t ts ih =>
      by_cases ht : t.field.id = b.field.id
      · simp [ht]
      · simp only [List.find?_cons, ht, decide_false] at h
        simpa [ht] using ih h

/-- The slot of a field after the slot of `c` was replaced. -/
theorem slot?_putSlot (hc : s.slot? c.field.id = some c) (ha : s.slot? a.field.id = some a)
    (hb : b.field = c.field) :
    c = a ∧ (s.putSlot b).slot? a.field.id = some b ∨
      c.field.id ≠ a.field.id ∧ (s.putSlot b).slot? a.field.id = some a := by
  rw [← hb] at hc ⊢
  by_cases h : b.field.id = a.field.id
  · rw [h, ha, Option.some.injEq] at hc
    rw [← h]
    exact .inl ⟨hc.symm, slot?_putSlot_self (h ▸ ha)⟩
  · exact .inr ⟨h, slot?_putSlot_of_ne s h ▸ ha⟩

theorem slot?_isSome_iff : (∃ a, s.slot? id = some a) ↔ id ∈ s.ids := by
  rw [← Option.isSome_iff_exists, slot?, List.find?_isSome]
  simp [ids]

theorem slot?_of_nodup (hn : s.ids.Nodup) (ha : a ∈ s.slots) : s.slot? a.field.id = some a := by
  obtain ⟨b, hb⟩ := slot?_isSome_iff.mpr (List.mem_map_of_mem ha)
  rw [hb, List.inj_on_of_nodup_map hn (slot?_mem hb) ha (slot?_id hb)]

/-! ## Edits -/

/-- What an edit of a field with slot `a` comes to. -/
inductive Edited (s : Session) (a : Slot) (value : Value) : Stepped → Prop
  | broken (e : Fault) (he : s.validator.validateField a.field.id value = .error e) :
      Edited s a value (s.putSlot { a with value }, [])
  | cleared (o : Outcome) (ho : s.validator.validateField a.field.id value = .ok o) (hb : value.isBlank) :
      Edited s a value (s.putSlot (a.cleared value o),
        cancelOf a.timer ++ cancelOf a.inflight ++ [.show (a.cleared value o).state])
  | unadvised (o : Outcome) (ho : s.validator.validateField a.field.id value = .ok o)
      (hb : value.isBlank = false) (ha : s.schema.advisoryEnabled = false) :
      Edited s a value (s.putSlot (a.checked value o), cancelOf a.timer ++ [.show (a.checked value o).state])
  | pausedAlone (o : Outcome) (ho : s.validator.validateField a.field.id value = .ok o)
      (hb : value.isBlank = false) (ha : s.schema.advisoryEnabled) (hm : s.mode = .field) :
      Edited s a value
        ({ s.putSlot (a.paused value o (some s.nextTask)) with nextTask := s.nextTask + 1 },
          cancelOf a.timer ++ [.start s.nextTask (.fieldTimer a.field.id),
            .show (a.paused value o (some s.nextTask)).state])
  | pausedTogether (o : Outcome) (ho : s.validator.validateField a.field.id value = .ok o)
      (hb : value.isBlank = false) (ha : s.schema.advisoryEnabled) (hm : s.mode = .form) :
      Edited s a value
        ({ s.putSlot (a.paused value o none) with formTimer := some s.nextTask, nextTask := s.nextTask + 1 },
          cancelOf a.timer ++ (cancelOf s.formTimer ++ [.start s.nextTask .formTimer,
            .show (a.paused value o none).state]))

theorem stateOf_putSlot (h : s.slot? b.field.id = some a) (d : Slot) :
    (s.putSlot b).stateOf b.field.id d = b.state := by
  rw [stateOf, slot?_putSlot_self h, Option.getD_some]

theorem schedule_edited {o : Outcome} {value : Value} (hs : s.slot? a.field.id = some a)
    (ho : s.validator.validateField a.field.id value = .ok o) :
    Edited s a value ((s.schedule (a.checked value o)).1, cancelOf a.timer ++
      (s.schedule (a.checked value o)).2 ++
        [.show ((s.schedule (a.checked value o)).1.stateOf a.field.id (a.checked value o))]) := by
  rw [show s.schedule (a.checked value o) = if value.isBlank then s.reset (a.checked value o)
    else if s.schema.advisoryEnabled then s.arm (a.checked value o)
    else (s.putSlot (a.checked value o), []) from rfl]
  cases hb : value.isBlank with
  | true => exact stateOf_putSlot (b := a.cleared value o) hs (a.checked value o) ▸ .cleared o ho hb
  | false =>
      cases ha : s.schema.advisoryEnabled with
      | false =>
          have h := Edited.unadvised o ho hb ha
          rw [← stateOf_putSlot (b := a.checked value o) hs (a.checked value o)] at h
          simp only [Bool.false_eq_true, if_false, List.append_nil]
          exact h
      | true =>
          cases hm : s.mode with
          | field =>
              have h := Edited.pausedAlone o ho hb ha hm
              have e : s.arm (a.checked value o) = ({ s.putSlot (a.paused value o (some s.nextTask)) with
                  nextTask := s.nextTask + 1 }, [.start s.nextTask (.fieldTimer a.field.id)]) := by
                simp only [arm, hm]
                rfl
              rw [← stateOf_putSlot (b := a.paused value o (some s.nextTask)) hs (a.checked value o)] at h
              simp only [Bool.false_eq_true, if_false, if_true, e, List.append_assoc]
              exact h
          | form =>
              have h := Edited.pausedTogether o ho hb ha hm
              have e : s.arm (a.checked value o) = ({ s.putSlot (a.paused value o none) with
                  formTimer := some s.nextTask, nextTask := s.nextTask + 1 },
                  cancelOf s.formTimer ++ [.start s.nextTask .formTimer]) := by
                simp only [arm, hm]
                rfl
              rw [← stateOf_putSlot (b := a.paused value o none) hs (a.checked value o)] at h
              simp only [Bool.false_eq_true, if_false, if_true, e, List.append_assoc]
              exact h

/-- An edit is refused without a trace, or it comes to one of the cases above. -/
theorem edit_cases (s : Session) (id : String) (value : Value) :
    (s.edit id value).1 = (s, []) ∧ (s.closed ∨ s.slot? id = none) ∨
      ∃ a, s.slot? id = some a ∧ s.closed = false ∧ Edited s a value (s.edit id value).1 := by
  unfold edit
  cases hc : s.closed with
  | true => exact .inl ⟨rfl, .inl rfl⟩
  | false =>
      cases hs : s.slot? id with
      | none => exact .inl ⟨by simp [slot, hs], .inr rfl⟩
      | some a =>
          obtain rfl := slot?_id hs
          refine .inr ⟨a, rfl, rfl, ?_⟩
          simp only [slot, hs, Bool.false_eq_true, if_false]
          cases ho : s.validator.validateField a.field.id value with
          | error e => exact .broken e ho
          | ok o => exact schedule_edited hs ho

/-- An edit that returns a state has passed its check. -/
theorem edit_taken {value : Value} {state : FieldState} (h : (s.edit id value).2 = .ok state) :
    ∃ a o, s.slot? id = some a ∧ s.validator.validateField id value = .ok o ∧
      Edited s a value (s.edit id value).1 := by
  rcases edit_cases s id value with ⟨-, hc | hn⟩ | ⟨a, ha, hc, he⟩
  · simp [edit, hc] at h
  · cases hc : s.closed <;> simp [edit, hc, slot, hn] at h
  · cases ho : s.validator.validateField id value with
    | error e => simp [edit, hc, slot, ha, ho] at h
    | ok o => exact ⟨a, o, ha, rfl, he⟩

/-! ## Requests -/

theorem dispatch_none (h : s.slot? id = none) : s.dispatch id = (s, []) := by
  simp [dispatch, h]

theorem dispatch_some (h : s.slot? id = some a) :
    s.dispatch id = ({ s.putSlot (a.requested s.nextTask) with nextTask := s.nextTask + 1 },
      (if s.cancelStale then cancelOf a.inflight else []) ++
        [.start s.nextTask (.evaluation a.field.id (a.token + 1) a.value),
          .show (a.requested s.nextTask).state]) := by
  obtain rfl := slot?_id h
  simp only [dispatch, h]
  rfl

/-- A request after which the field has no timer any more. -/
theorem dispatch_untimed (h : s.slot? id = some a) :
    (s.putSlot { a with timer := none }).dispatch id =
      ({ s.putSlot (({ a with timer := none } : Slot).requested s.nextTask) with nextTask := s.nextTask + 1 },
        (if s.cancelStale then cancelOf a.inflight else []) ++
          [.start s.nextTask (.evaluation a.field.id (a.token + 1) a.value),
            .show (({ a with timer := none } : Slot).requested s.nextTask).state]) := by
  obtain rfl := slot?_id h
  have hb := slot?_putSlot_self (b := { a with timer := none }) h
  rw [dispatch_some hb, putSlot_putSlot]
  · rfl
  · rfl

theorem fieldTimerFires_some (h : s.slot? id = some a) :
    s.fieldTimerFires id = (s.putSlot { a with timer := none }).dispatch id := by
  simp only [fieldTimerFires, h]

theorem dispatchIfValued_cases (s : Session) (id : String) :
    s.dispatchIfValued id = (s, []) ∧ (∀ a, s.slot? id = some a → a.value.isBlank) ∨
      ∃ a, s.slot? id = some a ∧ a.value.isBlank = false ∧ s.dispatchIfValued id = s.dispatch id := by
  unfold dispatchIfValued
  cases h : s.slot? id with
  | none => exact .inl ⟨rfl, by simp⟩
  | some a => cases hb : a.value.isBlank <;> simp [hb]

theorem dispatchIfPausing_cases (s : Session) (id : String) :
    s.dispatchIfPausing id = (s, []) ∧ (∀ a, s.slot? id = some a → a.phase ≠ .debouncing) ∨
      ∃ a, s.slot? id = some a ∧ a.phase = .debouncing ∧
        s.dispatchIfPausing id = (((s.putSlot { a with timer := none }).dispatch id).1,
          cancelOf a.timer ++ ((s.putSlot { a with timer := none }).dispatch id).2) := by
  unfold dispatchIfPausing
  cases h : s.slot? id with
  | none => exact .inl ⟨rfl, by simp⟩
  | some a => by_cases hp : a.phase = .debouncing <;> simp [hp]

/-! ## Answers -/

@[simp] theorem forget_field (a : Slot) (task : Nat) : (forget a task).field = a.field := by
  unfold forget; split <;> rfl

theorem forget_structural (a : Slot) (task : Nat) : (forget a task).structural = a.structural := by
  unfold forget; split <;> rfl

theorem isCurrent_iff {c : Slot} {token : Nat} {requested : Value} :
    isCurrent c token requested ↔ token = c.token ∧ c.value.eqv requested := by
  simp [isCurrent]

theorem forget_inflight {a : Slot} {task k : Nat} (h : (forget a task).inflight = some k) :
    a.inflight = some k := by
  unfold forget at h
  split at h
  · cases h
  · exact h

theorem forget_same (a : Slot) (task : Nat) :
    (forget a task).timer = a.timer ∧ (forget a task).value = a.value ∧ (forget a task).token = a.token ∧
      (forget a task).phase = a.phase ∧ (forget a task).advisory = a.advisory ∧
      (forget a task).resolved = a.resolved := by
  unfold forget
  split <;> exact ⟨rfl, rfl, rfl, rfl, rfl, rfl⟩

theorem commit_putSlot (s : Session) (b : Slot) (found : List Finding) :
    (s.putSlot b).commit b found = (s.putSlot (b.committed found), [.show (b.committed found).state]) := by
  rw [← putSlot_putSlot s (b := b) (c := b.committed found) rfl]
  rfl

theorem fallBack_putSlot (s : Session) (b : Slot) :
    (s.putSlot b).fallBack b = (s.putSlot b.fellBack, [.show b.fellBack.state]) := by
  rw [← putSlot_putSlot s (b := b) (c := b.fellBack) rfl]
  rfl

/-- What the end of an evaluation comes to, for a field with slot `a`. -/
inductive Settled (s : Session) (a : Slot) (task token : Nat) (requested : Value) : Ending → Stepped → Prop
  | dropped (ending : Ending)
      (h : ending = .cancelled ∨ isCurrent (forget a task) token requested = false) :
      Settled s a task token requested ending (s.putSlot (forget a task), [])
  | committed (found : List Finding) (h : isCurrent (forget a task) token requested) :
      Settled s a task token requested (.findings found)
        (s.putSlot ((forget a task).committed found), [.show ((forget a task).committed found).state])
  | fellBack (h : isCurrent (forget a task) token requested) :
      Settled s a task token requested .failed
        (s.putSlot (forget a task).fellBack, [.show (forget a task).fellBack.state])

theorem settle_none (h : s.slot? id = none) (task token : Nat) (requested : Value) (ending : Ending) :
    s.settle task id token requested ending = (s, []) := by
  simp [settle, h]

theorem settle_some (h : s.slot? id = some a) (task token : Nat) (requested : Value) (ending : Ending) :
    Settled s a task token requested ending (s.settle task id token requested ending) := by
  simp only [settle, h]
  cases ending with
  | cancelled => exact .dropped _ (.inl rfl)
  | failed =>
      cases hc : isCurrent (forget a task) token requested with
      | false => exact .dropped _ (.inr hc)
      | true =>
          simp only [if_true, fallBack_putSlot]
          exact .fellBack hc
  | findings found =>
      cases hc : isCurrent (forget a task) token requested with
      | false => exact .dropped _ (.inr hc)
      | true =>
          simp only [if_true, commit_putSlot]
          exact .committed found hc

/-- The end of an evaluation leaves the value and the timer of the field as they are. -/
theorem settle_slot (h : s.slot? id = some a) (task token : Nat) (requested : Value) (ending : Ending) :
    ∃ b : Slot, (s.settle task id token requested ending).1 = s.putSlot b ∧
      b.field = a.field ∧ b.timer = a.timer ∧ b.value = a.value := by
  obtain ⟨htimer, hvalue, -⟩ := forget_same a task
  have hsettled := settle_some h task token requested ending
  generalize s.settle task id token requested ending = r at hsettled
  cases hsettled with
  | dropped | committed | fellBack => exact ⟨_, rfl, forget_field a task, htimer, hvalue⟩

/-! ## Structural outcomes -/

theorem recordOutcome_some (h : s.slot? id = some a) (o : Outcome) :
    s.recordOutcome id o =
      if o = a.structural then (s, [])
      else (s.putSlot { a with structural := o }, [.show ({ a with structural := o } : Slot).state]) := by
  simp only [recordOutcome, h]

theorem recordOutcome_cases (s : Session) (id : String) (o : Outcome) :
    s.recordOutcome id o = (s, []) ∨ ∃ a, s.slot? id = some a ∧
      s.recordOutcome id o = (s.putSlot { a with structural := o },
        [.show ({ a with structural := o } : Slot).state]) := by
  cases h : s.slot? id with
  | none => exact .inl (by simp only [recordOutcome, h])
  | some a =>
      by_cases ho : o = a.structural
      · exact .inl (by simp [recordOutcome_some h, ho])
      · exact .inr ⟨a, rfl, by simp [recordOutcome_some h, ho]⟩

end Session
end Formwork
