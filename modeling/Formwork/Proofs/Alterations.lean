import Formwork.Proofs.Bookkeeping
import Formwork.Proofs.Settings

/-!
What an event does to the slot of one field, case by case. What every slot is like in every world is proved over these
cases, without another look into the operations.
-/

namespace Formwork

open Session

namespace World

/-- What a request for the field with slot `a` asks for, if its slot is `b` afterwards. -/
def asking (s : Session) (a b : Slot) : List Effect :=
  (if s.cancelStale then cancelOf a.inflight else []) ++
    [.start s.nextTask (.evaluation a.field.id (a.token + 1) a.value), .show b.state]

/-- What an event does to the slot `a` of a field. -/
inductive Alters (w : World) (a : Slot) : Event → List Effect → Slot → Prop
  | same {event : Event} {fx : List Effect}
      (quiet : ∀ task token v, Effect.start task (.evaluation a.field.id token v) ∉ fx)
      (refused : ∀ v, event = .edit a.field.id v → w.session.closed)
      (recorded : event = .visit → ∀ o rest, w.visits = .outcome a.field.id o :: rest → o = a.structural) :
      Alters w a event fx a
  | broken (v : Value) (e : Fault) (hc : w.session.closed = false)
      (he : w.session.validator.validateField a.field.id v = .error e) :
      Alters w a (.edit a.field.id v) [] { a with value := v }
  | cleared (v : Value) (o : Outcome) (hc : w.session.closed = false)
      (ho : w.session.validator.validateField a.field.id v = .ok o) (hb : v.isBlank) :
      Alters w a (.edit a.field.id v) (cancelOf a.timer ++ cancelOf a.inflight ++ [.show (a.cleared v o).state])
        (a.cleared v o)
  | unadvised (v : Value) (o : Outcome) (hc : w.session.closed = false)
      (ho : w.session.validator.validateField a.field.id v = .ok o) (hb : v.isBlank = false)
      (hadv : w.session.schema.advisoryEnabled = false) :
      Alters w a (.edit a.field.id v) (cancelOf a.timer ++ [.show (a.checked v o).state]) (a.checked v o)
  | pausedAlone (v : Value) (o : Outcome) (hc : w.session.closed = false)
      (ho : w.session.validator.validateField a.field.id v = .ok o) (hb : v.isBlank = false)
      (hadv : w.session.schema.advisoryEnabled) (hm : w.session.mode = .field) :
      Alters w a (.edit a.field.id v)
        (cancelOf a.timer ++ [.start w.session.nextTask (.fieldTimer a.field.id),
          .show (a.paused v o (some w.session.nextTask)).state])
        (a.paused v o (some w.session.nextTask))
  | pausedTogether (v : Value) (o : Outcome) (hc : w.session.closed = false)
      (ho : w.session.validator.validateField a.field.id v = .ok o) (hb : v.isBlank = false)
      (hadv : w.session.schema.advisoryEnabled) (hm : w.session.mode = .form) :
      Alters w a (.edit a.field.id v)
        (cancelOf a.timer ++ (cancelOf w.session.formTimer ++ [.start w.session.nextTask .formTimer,
          .show (a.paused v o none).state]))
        (a.paused v o none)
  | timerFired (e : Errand) (he : e ∈ w.errands) (hj : e.job = .fieldTimer a.field.id) (hc : e.cancelled = false) :
      Alters w a (.pauseOver e.id)
        (asking w.session a (({ a with timer := none } : Slot).requested w.session.nextTask))
        (({ a with timer := none } : Slot).requested w.session.nextTask)
  | flushed (rest : List Visit) (hv : w.visits = .pausing a.field.id :: rest) (hp : a.phase = .debouncing) :
      Alters w a .visit
        (cancelOf a.timer ++ asking w.session a (({ a with timer := none } : Slot).requested w.session.nextTask))
        (({ a with timer := none } : Slot).requested w.session.nextTask)
  | gathered (rest : List Visit) (hv : w.visits = .valued a.field.id :: rest) (hb : a.value.isBlank = false) :
      Alters w a .visit (asking w.session a (a.requested w.session.nextTask)) (a.requested w.session.nextTask)
  | dropped (e : Errand) (token : Nat) (requested : Value) (ending : Ending) (he : e ∈ w.errands)
      (hj : e.job = .evaluation a.field.id token requested)
      (hd : ending = .cancelled ∨ isCurrent (forget a e.id) token requested = false) :
      Alters w a (.answer e.id ending) [] (forget a e.id)
  | committed (e : Errand) (requested : Value) (found : List Finding) (he : e ∈ w.errands)
      (hj : e.job = .evaluation a.field.id a.token requested) (hv : a.value.eqv requested) :
      Alters w a (.answer e.id (.findings found)) [.show ((forget a e.id).committed found).state]
        ((forget a e.id).committed found)
  | fellBack (e : Errand) (requested : Value) (he : e ∈ w.errands)
      (hj : e.job = .evaluation a.field.id a.token requested) (hv : a.value.eqv requested) :
      Alters w a (.answer e.id .failed) [.show (forget a e.id).fellBack.state] (forget a e.id).fellBack
  | recorded (o : Outcome) (rest : List Visit) (hv : w.visits = .outcome a.field.id o :: rest)
      (hn : o ≠ a.structural) :
      Alters w a .visit [.show ({ a with structural := o } : Slot).state] { a with structural := o }

namespace Alters

variable {w : World} {a b c : Slot} {event : Event} {fx : List Effect}

/-- An event that is about another field. -/
theorem other {field : String} (hne : field ≠ a.field.id)
    (quiet : ∀ task token v, Effect.start task (.evaluation a.field.id token v) ∉ fx)
    (edits : ∀ id v, event = .edit id v → id = field)
    (records : event = .visit → ∀ id o rest, w.visits = .outcome id o :: rest → id = field) :
    w.Alters a event fx a :=
  .same quiet (fun _ he => absurd (edits _ _ he).symm hne)
    fun hev _ _ hv => absurd (records hev _ _ _ hv).symm hne

theorem edited {v : Value} {s : Stepped} (h : Edited w.session c v s) (ha : w.session.slot? a.field.id = some a)
    (hc : w.session.slot? c.field.id = some c) (hcl : w.session.closed = false) :
    ∃ b, s.1.slot? a.field.id = some b ∧ w.Alters a (.edit c.field.id v) s.2 b := by
  have put {b : Slot} {fx : List Effect} (hb : b.field = c.field) (hown : w.Alters c (.edit c.field.id v) fx b)
      (quiet : ∀ task token u, Effect.start task (.evaluation a.field.id token u) ∉ fx) :
      ∃ d, (w.session.putSlot b).slot? a.field.id = some d ∧ w.Alters a (.edit c.field.id v) fx d := by
    rcases slot?_putSlot hc ha hb with ⟨rfl, hp⟩ | ⟨hne, hp⟩
    · exact ⟨b, hp, hown⟩
    · exact ⟨a, hp, other hne quiet (fun _ _ he => (Event.edit.inj he).1.symm) (by simp)⟩
  cases h with
  | broken e he => exact put rfl (.broken v e hcl he) (by simp)
  | cleared o ho hb => exact put rfl (.cleared v o hcl ho hb) (by simp)
  | unadvised o ho hb hadv => exact put rfl (.unadvised v o hcl ho hb hadv) (by simp)
  | pausedAlone o ho hb hadv hm => exact put rfl (.pausedAlone v o hcl ho hb hadv hm) (by simp)
  | pausedTogether o ho hb hadv hm => exact put rfl (.pausedTogether v o hcl ho hb hadv hm) (by simp)

/-- The only start among the effects of a request. -/
theorem start_mem_asking {s : Session} {task token : Nat} {id : String} {v : Value}
    (h : Effect.start task (.evaluation id token v) ∈ asking s a b) :
    task = s.nextTask ∧ id = a.field.id ∧ token = a.token + 1 ∧ v = a.value := by
  unfold asking at h
  cases hs : s.cancelStale <;> simpa [hs] using h

/-- A request for the field of `c`, seen from the field of `a`. -/
theorem asked {n : Nat} (hc : w.session.slot? c.field.id = some c) (ha : w.session.slot? a.field.id = some a)
    (hb : b.field = c.field) (hown : w.Alters c event fx b)
    (starts : ∀ task id token v, Effect.start task (.evaluation id token v) ∈ fx → id = c.field.id)
    (edits : ∀ id v, event ≠ .edit id v) (records : event = .visit → ∀ id o rest, w.visits ≠ .outcome id o :: rest) :
    ∃ d, ({ w.session.putSlot b with nextTask := n } : Session).slot? a.field.id = some d ∧
      w.Alters a event fx d := by
  rcases slot?_putSlot hc ha hb with ⟨rfl, hp⟩ | ⟨hne, hp⟩
  · exact ⟨b, hp, hown⟩
  · refine ⟨a, hp, other hne (fun task token v hs => hne (starts _ _ _ _ hs).symm) (fun _ _ he => ?_)
      fun hev _ _ _ hv => ?_⟩
    · exact absurd he (edits _ _)
    · exact absurd hv (records hev _ _ _)

theorem visited {v : Visit} {rest : List Visit} (hv : w.visits = v :: rest)
    (ha : w.session.slot? a.field.id = some a) :
    ∃ b, (v.step w.session).1.slot? a.field.id = some b ∧ w.Alters a .visit (v.step w.session).2 b := by
  have unmoved (hr : ∀ o, v = .outcome a.field.id o → o = a.structural) :
      ∃ b, w.session.slot? a.field.id = some b ∧ w.Alters a .visit [] b := by
    refine ⟨a, ha, .same (by simp) (by simp) fun _ o rest' hv' => hr o ?_⟩
    rw [hv] at hv'
    exact (List.cons.inj hv').1
  cases v with
  | valued id =>
      rcases dispatchIfValued_cases w.session id with ⟨he, -⟩ | ⟨c, hc, hb, he⟩ <;> rw [Visit.step, he]
      · exact unmoved (by simp)
      · obtain rfl := slot?_id hc
        rw [dispatch_some hc]
        refine asked hc ha rfl (.gathered rest hv hb) (fun _ _ _ _ hs => (start_mem_asking hs).2.1)
          (by simp) fun _ _ _ _ hv' => ?_
        rw [hv] at hv'
        cases hv'
  | pausing id =>
      rcases dispatchIfPausing_cases w.session id with ⟨he, -⟩ | ⟨c, hc, hp, he⟩ <;> rw [Visit.step, he]
      · exact unmoved (by simp)
      · obtain rfl := slot?_id hc
        rw [dispatch_untimed hc]
        refine asked hc ha rfl (.flushed rest hv hp) (fun _ _ _ _ hs => ?_) (by simp)
          fun _ _ _ _ hv' => ?_
        · exact (start_mem_asking ((List.mem_append.mp hs).resolve_left (by simp))).2.1
        · rw [hv] at hv'
          cases hv'
  | outcome id o =>
      rw [Visit.step]
      cases hc : w.session.slot? id with
      | none =>
          rw [show w.session.recordOutcome id o = (w.session, []) by simp only [recordOutcome, hc]]
          refine unmoved fun o' ho => ?_
          obtain ⟨rfl, -⟩ := Visit.outcome.inj ho
          cases ha.symm.trans hc
      | some c =>
          obtain rfl := slot?_id hc
          rw [recordOutcome_some hc]
          by_cases ho : o = c.structural
          · rw [if_pos ho]
            refine unmoved fun o' ho' => ?_
            obtain ⟨hid, rfl⟩ := Visit.outcome.inj ho'
            rw [hid, ha, Option.some.injEq] at hc
            exact hc ▸ ho
          · rw [if_neg ho]
            rcases slot?_putSlot (b := { c with structural := o }) hc ha rfl with ⟨rfl, hp⟩ | ⟨hne, hp⟩
            · exact ⟨_, hp, .recorded o rest hv ho⟩
            · refine ⟨a, hp, other hne (by simp) (by simp) fun _ _ _ _ hv' => ?_⟩
              rw [hv] at hv'
              exact (Visit.outcome.inj (List.cons.inj hv').1).1.symm

theorem settled {e : Errand} {token : Nat} {requested : Value} {ending : Ending} {s : Stepped}
    (ha : w.session.slot? a.field.id = some a) (hc : w.session.slot? c.field.id = some c) (he : e ∈ w.errands)
    (hj : e.job = .evaluation c.field.id token requested)
    (h : Settled w.session c e.id token requested ending s) :
    ∃ b, s.1.slot? a.field.id = some b ∧ w.Alters a (.answer e.id ending) s.2 b := by
  have put {b : Slot} {fx : List Effect} (hb : b.field = c.field) (hown : w.Alters c (.answer e.id ending) fx b)
      (quiet : ∀ task token u, Effect.start task (.evaluation a.field.id token u) ∉ fx) :
      ∃ d, (w.session.putSlot b).slot? a.field.id = some d ∧ w.Alters a (.answer e.id ending) fx d := by
    rcases slot?_putSlot hc ha hb with ⟨rfl, hp⟩ | ⟨hne, hp⟩
    · exact ⟨b, hp, hown⟩
    · exact ⟨a, hp, other hne quiet (by simp) (by simp)⟩
  obtain ⟨-, hvalue, htoken, -⟩ := forget_same c e.id
  have current (hcur : isCurrent (forget c e.id) token requested) :
      e.job = .evaluation c.field.id c.token requested ∧ c.value.eqv requested := by
    obtain ⟨ht, hv⟩ := isCurrent_iff.mp hcur
    exact ⟨htoken ▸ ht ▸ hj, hvalue ▸ hv⟩
  have hfield := forget_field c e.id
  cases h with
  | dropped _ hd => exact put hfield (.dropped e token requested ending he hj hd) (by simp)
  | committed found hcur =>
      exact put (b := (forget c e.id).committed found) hfield
        (.committed e requested found he (current hcur).1 (current hcur).2) (by simp)
  | fellBack hcur =>
      exact put (b := (forget c e.id).fellBack) hfield (.fellBack e requested he (current hcur).1 (current hcur).2)
        (by simp)

theorem field_eq (h : w.Alters a event fx b) : b.field = a.field := by
  cases h with
  | dropped e | committed e | fellBack e => exact forget_field a e.id
  | _ => rfl

end Alters

/-- What every event does to the slot of a field. -/
theorem Step.alters {w w' : World} {event : Event} {fx : List Effect} {a : Slot} (hs : w.Step event fx w')
    (ha : w.session.slot? a.field.id = some a) :
    ∃ b, w'.session.slot? a.field.id = some b ∧ w.Alters a event fx b := by
  have unmoved {event : Event} {fx : List Effect}
      (quiet : ∀ task token v, Effect.start task (.evaluation a.field.id token v) ∉ fx)
      (edits : ∀ v, event ≠ .edit a.field.id v) (hn : event ≠ .visit) : w.Alters a event fx a :=
    .same quiet (fun v he => absurd he (edits v)) fun he => absurd he hn
  cases hs with
  | edit id v =>
      rcases w.session.edit_cases id v with ⟨he, hr⟩ | ⟨c, hc, hcl, he⟩
      · rw [absorb, he]
        refine ⟨a, ha, .same (by simp) (fun u hu => ?_) (by simp)⟩
        obtain ⟨rfl, -⟩ := Event.edit.inj hu
        refine hr.resolve_right fun hn => ?_
        cases ha.symm.trans hn
      · obtain rfl := slot?_id hc
        rw [absorb]
        exact Alters.edited he ha hc hcl
  | flush =>
      refine ⟨a, ha, unmoved ?_ (by simp) (by simp)⟩
      simp [Session.beginFlush]
  | close =>
      refine ⟨a, ha, unmoved ?_ (by simp) (by simp)⟩
      simp [Session.close]
  | validateAll | validateNone | «begin» | formPauseOver | vanish | otherTask =>
      exact ⟨a, ha, unmoved (by simp) (by simp) (by simp)⟩
  | visit v rest hv => exact Alters.visited hv ha
  | fieldPauseOver e id _ he hj _ hn =>
      cases hc : w.session.slot? id with
      | none =>
          rw [show w.session.fieldTimerFires id = (w.session, []) by simp [fieldTimerFires, hc]]
          exact ⟨a, ha, unmoved (by simp) (by simp) (by simp)⟩
      | some c =>
          obtain rfl := slot?_id hc
          rw [fieldTimerFires_some hc, dispatch_untimed hc]
          exact Alters.asked hc ha rfl (.timerFired e he hj hn) (fun _ _ _ _ hs => (Alters.start_mem_asking hs).2.1)
            (by simp) (by simp)
  | answer e id token requested ending _ he hj =>
      cases hc : w.session.slot? id with
      | none =>
          rw [settle_none hc]
          exact ⟨a, ha, unmoved (by simp) (by simp) (by simp)⟩
      | some c =>
          obtain rfl := slot?_id hc
          exact Alters.settled ha hc he hj (settle_some hc ..)

/-- The slots of a field before and after an event. -/
theorem Step.alters_of_after {w w' : World} {event : Event} {fx : List Effect} {field : String} {b : Slot}
    (hs : w.Step event fx w') (hb : w'.session.slot? field = some b) :
    ∃ a, w.session.slot? field = some a ∧ a.field.id = field ∧ w.Alters a event fx b := by
  have hm : field ∈ w.session.ids := hs.alike.ids ▸ slot?_isSome_iff.mp ⟨b, hb⟩
  obtain ⟨a, ha⟩ := slot?_isSome_iff.mpr hm
  obtain rfl := slot?_id ha
  obtain ⟨c, hc, h⟩ := hs.alters ha
  rw [hb, Option.some.injEq] at hc
  exact ⟨a, ha, rfl, hc ▸ h⟩

end World
end Formwork
