import Formwork.Proofs.Dues
import Formwork.Proofs.StaleResults

/-!
Fields that are pending: what an event makes of them, and why a field stays pending after its evaluation has
answered.
-/

namespace Formwork

open World Session

namespace World

variable {w w' u : World} {event : Event} {fx : List Effect} {s : Stepped} {field : String} {a b : Slot}

/-- The evaluation answers, but it is cancelled, or the field has another value than the one that was evaluated. -/
def Misses (a : Slot) (event : Event) (task : Nat) (v : Value) : Prop :=
  ∃ ending, event = .answer task ending ∧ (ending = .cancelled ∨ a.value.eqv v = false)

/-- The tasks of the field that are not cancelled go on. -/
def Keeps (w w' : World) (field : String) : Prop := ∀ e ∈ w.errands, e.job.field? = some field → e.cancelled = false →
  ∃ x ∈ w'.errands, x.id = e.id ∧ x.job = e.job ∧ x.cancelled = false

/-- A pending field stays pending. Its value changes only by an edit whose check breaks off, and the evaluation of its
last request goes on, unless it misses. -/
structure Stays (w : World) (event : Event) (w' : World) (a b : Slot) : Prop where
  before : w.session.slot? b.field.id = some a
  phase : a.phase = .pending
  token : b.token = a.token
  value : b.value = a.value ∨ event = .edit b.field.id b.value ∧
    ∃ e, w.session.validator.validateField b.field.id b.value = .error e
  running : ∀ e ∈ w.errands, ∀ v, e.job = .evaluation b.field.id a.token v → a.inflight = some e.id →
    e.cancelled = false →
      (∃ x ∈ w'.errands, x.id = e.id ∧ x.job = e.job ∧ x.cancelled = false) ∧ b.inflight = some e.id ∨
        Misses a event e.id v

/-- An evaluation is requested, and its task is new. -/
structure Asked (w : World) (fx : List Effect) (w' : World) (b : Slot) : Prop where
  start : .start w.session.nextTask (.evaluation b.field.id b.token b.value) ∈ fx
  inflight : b.inflight = some w.session.nextTask
  errand : { id := w.session.nextTask, job := .evaluation b.field.id b.token b.value } ∈ w'.errands

/-- How a field comes to be pending after an event. -/
def Pends (w : World) (event : Event) (fx : List Effect) (w' : World) (b : Slot) : Prop :=
  (∃ a, w.Stays event w' a b) ∨ w.Asked fx w' b

namespace Keeps

theorem refl (w : World) (field : String) : w.Keeps w field := fun e he _ hc => ⟨e, he, rfl, rfl, hc⟩

theorem trans (h : w.Keeps w' field) (h' : w'.Keeps u field) : w.Keeps u field := by
  intro e he hj hc
  obtain ⟨x, hx, hi, hj', hc'⟩ := h e he hj hc
  obtain ⟨y, hy, hi', hj'', hc''⟩ := h' x hx (hj' ▸ hj) hc'
  exact ⟨y, hy, hi'.trans hi, hj''.trans hj', hc''⟩

theorem absorb (h : ∀ e ∈ w.errands, s.2.any (·.cancels e.id) → e.job.field? ≠ some field) :
    w.Keeps (w.absorb s) field := by
  intro e he hj hc
  exact ⟨e, mem_absorb_of_mem he (Bool.eq_false_iff.mpr fun hx => h e he hx hj), rfl, rfl, hc⟩

theorem without {task : Nat}
    (h : ∀ e ∈ w.errands, e.id = task → e.cancelled = false → e.job.field? ≠ some field) :
    w.Keeps (w.without task) field := by
  intro e he hj hc
  exact ⟨e, mem_without.mpr ⟨he, fun hi => h e he hi hc hj⟩, rfl, rfl, hc⟩

/-- Cancelling the tasks of another field, or the timer of the form. -/
theorem other (hw : w.Sound) (ha : a ∈ w.session.slots) (hne : a.field.id ≠ field)
    (hfx : ∀ k, s.2.any (·.cancels k) →
      a.timer = some k ∨ a.inflight = some k ∨ w.session.formTimer = some k) :
    w.Keeps (w.absorb s) field := by
  refine absorb fun e he hx hj => ?_
  rcases hfx e.id hx with ht | hi | hf
  · rw [(hw.slot a ha).timer_job e he ht] at hj
    exact hne (Option.some.inj hj)
  · obtain ⟨token, v, he'⟩ := (hw.slot a ha).inflight_job e he hi
    rw [he'] at hj
    exact hne (Option.some.inj hj)
  · rw [hw.form_job e he hf] at hj
    cases hj

theorem quiet (hfx : ∀ k, s.2.any (·.cancels k) = false) (field : String) : w.Keeps (w.absorb s) field :=
  absorb fun e _ hx => by
    rw [hfx] at hx
    cases hx

end Keeps

namespace Stays

/-- An event that leaves the field alone. -/
theorem frame (hw : w.Sound) (hb : b ∈ w.session.slots) (hp : b.phase = .pending) (hk : w.Keeps w' b.field.id) :
    w.Stays event w' b b where
  before := hw.slot?_of_mem hb
  phase := hp
  token := rfl
  value := .inl rfl
  running e he v hj hi hc := .inl ⟨hk e he (by rw [hj]; rfl) hc, hi⟩

/-- The slots after an event that puts one of them in place. -/
theorem put (hw : w.Sound) (hslots : w'.session.slots = (w.session.putSlot a).slots)
    (hown : a.phase = .pending → w.Pends event fx w' a) (hk : ∀ f, a.field.id ≠ f → w.Keeps w' f)
    (hb : b ∈ w'.session.slots) (hp : b.phase = .pending) : w.Pends event fx w' b := by
  rw [hslots] at hb
  rcases mem_putSlot hb with rfl | ⟨hb, hne⟩
  · exact hown hp
  · exact .inl ⟨b, frame hw hb hp (hk _ hne.symm)⟩

/-- An edit cancels tasks of its field, or the timer of the form. -/
theorem cancels_of_edited {v : Value} (he : Edited w.session a v s) {k : Nat} (hk : s.2.any (·.cancels k)) :
    a.timer = some k ∨ a.inflight = some k ∨ w.session.formTimer = some k := by
  cases he <;> simp at hk <;> tauto

theorem edited (hw : w.Sound) (hidle : w.session.schema.advisoryEnabled = false → a.phase = .idle)
    (ha : w.session.slot? a.field.id = some a) {v : Value} (he : Edited w.session a v s)
    (hb : b ∈ (w.absorb s).session.slots) (hp : b.phase = .pending) :
    w.Pends (.edit a.field.id v) s.2 (w.absorb s) b := by
  have others : ∀ f, a.field.id ≠ f → w.Keeps (w.absorb s) f := fun f hne =>
    .other hw (slot?_mem ha) hne fun k hk => cancels_of_edited he hk
  cases he with
  | broken e he =>
      refine put hw rfl (fun hp => .inl ⟨a, ha, hp, rfl, .inr ⟨rfl, e, he⟩, fun x hx u hj hi hc => .inl ⟨?_, hi⟩⟩)
        others hb hp
      exact Keeps.quiet (by simp) a.field.id x hx (by rw [hj]; rfl) hc
  | cleared | pausedAlone | pausedTogether => exact put hw rfl (fun hp => by cases hp) others hb hp
  | unadvised o ho hbl hadv =>
      refine put hw rfl (fun hp => ?_) others hb hp
      have hp : a.phase = .pending := hp
      rw [hidle hadv] at hp
      cases hp

/-- A request, made in a world that may differ from `w` in the tasks that have ended and in the visits. -/
theorem asked (hw : w.Sound) (hu : u.Sound) (hsame : u.session = w.session)
    (hkeep : ∀ f, a.field.id ≠ f → w.Keeps u f) (ha : w.session.slot? a.field.id = some a) (timer : Option Nat)
    (hstart : .start w.session.nextTask (.evaluation a.field.id (a.token + 1) a.value) ∈ fx)
    (hc : ∀ k, fx.any (·.cancels k) → a.timer = some k ∨ a.inflight = some k)
    (hs : s = ({ w.session.putSlot (({ a with timer } : Slot).requested w.session.nextTask) with
      nextTask := w.session.nextTask + 1 }, fx))
    (hb : b ∈ (u.absorb s).session.slots) (hp : b.phase = .pending) :
    w.Pends event fx (u.absorb s) b := by
  subst hs
  refine put hw (a := ({ a with timer } : Slot).requested w.session.nextTask) rfl (fun _ => .inr ?_)
    (fun f hne => (hkeep f hne).trans (Keeps.other (a := a) hu (hsame ▸ slot?_mem ha) hne fun k hk => ?_)) hb hp
  · exact ⟨hstart, rfl, mem_absorb_of_start hstart⟩
  · exact (hc k hk).imp_right .inl

theorem settled (hw : w.Sound) (ha : w.session.slot? a.field.id = some a) {e : Errand} {token : Nat}
    {requested : Value} {ending : Ending} (he : e ∈ w.errands) (hj : e.job = .evaluation a.field.id token requested)
    (hs : Settled w.session a e.id token requested ending s) (hb : b ∈ ((w.without e.id).absorb s).session.slots)
    (hp : b.phase = .pending) : w.Pends (.answer e.id ending) s.2 ((w.without e.id).absorb s) b := by
  obtain ⟨-, hvalue, htoken, hphase, -, -⟩ := forget_same a e.id
  have hfield := forget_field a e.id
  have quiet : ∀ f, (w.without e.id).Keeps ((w.without e.id).absorb s) f := by
    cases hs <;> exact .quiet (by simp)
  have others : ∀ f, a.field.id ≠ f → w.Keeps ((w.without e.id).absorb s) f := by
    refine fun f hne => (Keeps.without fun x hx hi _ => ?_).trans (quiet f)
    obtain rfl := hw.eq_of_id hx he hi
    rw [hj]
    exact fun h => hne (Option.some.inj h)
  cases hs with
  | dropped _ hd =>
      refine put hw (a := forget a e.id) rfl (fun hp => .inl ⟨a, ?_, hphase ▸ hp, htoken, .inl hvalue, ?_⟩)
        (fun f hne => others f (hfield ▸ hne)) hb hp
      · rw [hfield, ha]
      · intro x hx v hxj hi hxc
        rw [hfield] at hxj
        by_cases hxe : x.id = e.id
        · -- its own evaluation ends, and a result that is current is not dropped
          obtain rfl := hw.eq_of_id hx he hxe
          obtain ⟨-, rfl, rfl⟩ := Job.evaluation.inj (hxj.symm.trans hj)
          refine .inr ⟨ending, rfl, hd.imp_right fun hcur => Bool.eq_false_iff.mpr fun hv => ?_⟩
          rw [isCurrent_iff.mpr ⟨htoken.symm, hvalue ▸ hv⟩] at hcur
          cases hcur
        · have hkept : (forget a e.id).inflight = some x.id := by
            rw [forget, if_neg, hi]
            rw [hi]
            exact fun h => hxe (Option.some.inj h)
          exact .inl ⟨quiet a.field.id x (mem_without.mpr ⟨hx, hxe⟩) (by rw [hxj]; rfl) hxc, hkept⟩
  | committed found =>
      exact put hw (a := (forget a e.id).committed found) rfl (fun hp => by cases hp)
        (fun f hne => others f (hfield ▸ hne)) hb hp
  | fellBack =>
      refine put hw (a := (forget a e.id).fellBack) rfl (fun hp => ?_) (fun f hne => others f (hfield ▸ hne)) hb hp
      simp only [Slot.fellBack] at hp
      split at hp <;> cases hp

/-- The walk over the fields comes to one of them. -/
theorem visited (hw : w.Sound) (v : Visit) (rest : List Visit)
    (hb : b ∈ (World.absorb { w with visits := rest } (v.step w.session)).session.slots) (hp : b.phase = .pending) :
    w.Pends .visit (v.step w.session).2 (World.absorb { w with visits := rest } (v.step w.session)) b := by
  have unmoved : v.step w.session = (w.session, []) →
      w.Pends .visit (v.step w.session).2 (World.absorb { w with visits := rest } (v.step w.session)) b := by
    intro he
    rw [he] at hb ⊢
    exact .inl ⟨b, frame hw hb hp (Keeps.quiet (w := { w with visits := rest }) (by simp) _)⟩
  cases v with
  | valued id =>
      rcases dispatchIfValued_cases w.session id with ⟨he, -⟩ | ⟨a, ha, -, he⟩
      · exact unmoved he
      · obtain rfl := slot?_id ha
        rw [Visit.step, he, dispatch_some ha] at hb ⊢
        exact asked hw (hw.with_visits rest) rfl (fun f _ => .refl w f) ha a.timer (by simp)
          (fun k hk => .inr (Change.cancels_request hk)) rfl hb hp
  | pausing id =>
      rcases dispatchIfPausing_cases w.session id with ⟨he, -⟩ | ⟨a, ha, -, he⟩
      · exact unmoved he
      · obtain rfl := slot?_id ha
        rw [Visit.step, he, dispatch_untimed ha] at hb ⊢
        refine asked hw (hw.with_visits rest) rfl (fun f _ => .refl w f) ha none (by simp) (fun k hk => ?_) rfl hb hp
        rw [List.any_append, Bool.or_eq_true, any_cancels_cancelOf, decide_eq_true_eq] at hk
        exact hk.imp_right Change.cancels_request
  | outcome id o =>
      rcases recordOutcome_cases w.session id o with he | ⟨a, ha, he⟩
      · exact unmoved he
      · obtain rfl := slot?_id ha
        rw [Visit.step, he] at hb ⊢
        have keeps : ∀ f, w.Keeps (World.absorb { w with visits := rest } (w.session.putSlot { a with structural := o },
            [.show ({ a with structural := o } : Slot).state])) f :=
          fun f => Keeps.quiet (w := { w with visits := rest }) (by simp) f
        refine put hw (a := { a with structural := o }) rfl (fun hp => .inl ⟨a, ha, hp, rfl, .inl rfl, ?_⟩)
          (fun f _ => keeps f) hb hp
        exact fun x hx u hj hi hc => .inl ⟨keeps a.field.id x hx (by rw [hj]; rfl) hc, hi⟩

end Stays

/-- What every event makes of a pending field, as long as the session is open. -/
theorem Step.pends (hs : w.Step event fx w') (hw : w.Sound)
    (hidle : w.session.schema.advisoryEnabled = false → ∀ c ∈ w.session.slots, c.phase = .idle)
    (hopen : w'.session.closed = false) (hb : b ∈ w'.session.slots) (hp : b.phase = .pending) :
    w.Pends event fx w' b := by
  cases hs with
  | edit id v =>
      rcases w.session.edit_cases id v with ⟨he, -⟩ | ⟨a, ha, -, he⟩
      · rw [absorb, he] at hb
        rw [he]
        exact .inl ⟨b, .frame hw hb hp (Keeps.quiet (by simp) _)⟩
      · obtain rfl := slot?_id ha
        exact Stays.edited hw (fun hadv => hidle hadv a (slot?_mem ha)) ha he hb hp
  | flush =>
      refine .inl ⟨b, .frame hw hb hp (Keeps.absorb fun e he hx => ?_)⟩
      have hf : w.session.formTimer = some e.id := by simpa [Session.beginFlush] using hx
      rw [hw.form_job e he hf]
      simp [Job.field?]
  | validateAll | validateNone | otherTask => exact .inl ⟨b, .frame hw hb hp (.refl w _)⟩
  | close => cases hopen
  | visit v rest => exact Stays.visited hw v rest hb hp
  | «begin» e =>
      exact .inl ⟨b, .frame hw hb hp (Spares.markBegun w e.id _).errands⟩
  | fieldPauseOver e id hv he hj hbegun hc =>
      have keeps (f : String) (hne : id ≠ f) : w.Keeps (w.without e.id) f := by
        refine .without fun x hx hi _ => ?_
        obtain rfl := hw.eq_of_id hx he hi
        rw [hj]
        exact fun h => hne (Option.some.inj h)
      cases ha : w.session.slot? id with
      | none =>
          have hf : w.session.fieldTimerFires id = (w.session, []) := by simp [fieldTimerFires, ha]
          rw [hf] at hb ⊢
          refine .inl ⟨b, .frame hw hb hp ((keeps _ ?_).trans (Keeps.quiet (by simp) _))⟩
          rintro rfl
          cases (hw.slot?_of_mem hb).symm.trans ha
      | some a =>
          obtain rfl := slot?_id ha
          rw [fieldTimerFires_some ha, dispatch_untimed ha] at hb ⊢
          exact Stays.asked hw (hw.without e.id) rfl keeps ha none (by simp)
            (fun k hk => .inr (Change.cancels_request hk)) rfl hb hp
  | formPauseOver e hv he hj =>
      refine .inl ⟨b, .frame hw hb hp ?_⟩
      intro x hx hxj hxc
      refine ⟨x, mem_without.mpr ⟨hx, fun hi => ?_⟩, rfl, rfl, hxc⟩
      rw [hw.eq_of_id hx he hi, hj] at hxj
      cases hxj
  | answer e id token requested ending hv he hj =>
      cases ha : w.session.slot? id with
      | none =>
          rw [settle_none ha] at hb ⊢
          refine .inl ⟨b, .frame hw hb hp ((Keeps.without fun x hx hi _ => ?_).trans (Keeps.quiet (by simp) _))⟩
          rw [hw.eq_of_id hx he hi, hj]
          intro hid
          obtain rfl := Option.some.inj hid
          cases (hw.slot?_of_mem hb).symm.trans ha
      | some a =>
          obtain rfl := slot?_id ha
          exact Stays.settled hw ha he hj (settle_some ha ..) hb hp
  | vanish e hv he hc =>
      refine .inl ⟨b, .frame hw hb hp (Keeps.without fun x hx hi hn => ?_)⟩
      rw [hw.eq_of_id hx he hi, hc] at hn
      cases hn

end World
end Formwork
