import Formwork.Proofs.Dues

/-!
Fields on their way to rest: as long as the evaluator answers, every field that is not at rest has something
going on that will bring it there.
-/

namespace Formwork

open World

namespace World.Transition

/-- The field is edited, or its evaluation is requested. -/
def Touches (t : Transition) (field : String) : Prop :=
  (∃ v, t.event = .edit field v) ∨ ∃ task token v, t.Requests field task token v

theorem untouched {t : Transition} {field : String} (he : ∀ v, t.event ≠ .edit field v)
    (hfx : ∀ task k v, .start task (.evaluation field k v) ∉ t.effects) : ¬t.Touches field := by
  rintro (⟨v, hv⟩ | ⟨task, k, v, hv⟩)
  · exact he v hv
  · exact hfx task k v hv

/-- The evaluator answers with the findings `r`, unless it is cancelled, and an edit is an ordinary one: its
value is equal to itself, and the check does not break off. -/
structure Fair (r : String → Value → List Finding) (t : Transition) : Prop where
  answers : ∀ e ∈ t.before.errands, ∀ field token v ending, e.job = .evaluation field token v →
    t.event = .answer e.id ending → ending = .findings (r field v) ∨ e.cancelled ∧ ending = .cancelled
  edits : ∀ field v, t.event = .edit field v → v.eqv v ∧
    ∀ a, t.before.session.slot? field = some a → ∃ o, t.before.session.validator.validateField field v = .ok o

/-- Whether a transition is fair, computed. -/
def isFair (r : String → Value → List Finding) (t : Transition) : Bool :=
  match t.event with
  | .edit field v => v.eqv v && (t.before.session.slot? field).all fun _ =>
      (t.before.session.validator.validateField field v).isOk
  | .answer task ending => t.before.errands.all fun e => e.id ≠ task || match e.job, ending with
      | .evaluation field _ v, .findings found => found = r field v
      | .evaluation .., .cancelled => e.cancelled
      | .evaluation .., .failed => false
      | _, _ => true
  | _ => true

theorem fair_of_isFair {r : String → Value → List Finding} {t : Transition} (h : t.isFair r) : t.Fair r where
  answers e he field token v ending hj hev := by
    rw [isFair, hev] at h
    have h := List.all_eq_true.mp h e he
    cases ending with
    | findings found => exact .inl (congrArg _ (by simpa [hj] using h))
    | cancelled => exact .inr ⟨by simpa [hj] using h, rfl⟩
    | failed => simp [hj] at h
  edits field v hev := by
    rw [isFair, hev, Bool.and_eq_true] at h
    refine ⟨h.1, fun a ha => ?_⟩
    have ho := h.2
    rw [ha, Option.all_some] at ho
    cases hval : t.before.session.validator.validateField field v with
    | ok o => exact ⟨o, rfl⟩
    | error e => rw [hval] at ho; cases ho

end World.Transition

/-- What keeps a field going, and what it is like at rest. -/
structure Slot.Settling (r : String → Value → List Finding) (ts : List Transition) (w : World) (c : Slot) :
    Prop where
  due : c.phase = .debouncing → w.Due c.field.id
  running : c.phase = .pending → c.value.eqv c.value → ∃ e ∈ w.errands, c.inflight = some e.id ∧
    e.cancelled = false ∧ ∃ v, e.job = .evaluation c.field.id c.token v ∧ c.value.eqv v
  answered : c.phase = .resolved → c.resolved.findings = r c.field.id c.value
  idle : c.phase = .idle → c.value.isBlank ∨ ∀ t ∈ ts, ¬t.Touches c.field.id
  touched : c.phase ≠ .idle → ∃ t ∈ ts, t.Touches c.field.id
  /-- A value that is not equal to itself was there from the start. -/
  strange : c.value.eqv c.value = false → (∀ t ∈ ts, ∀ v, t.event ≠ .edit c.field.id v) ∧ c.resolved = {}

namespace Slot.Settling

open Session

variable {r : String → Value → List Finding} {ts : List Transition} {w w' : World} {t : Transition}
  {a c : Slot} {s : Stepped}

theorem mem_last (ts : List Transition) (t : Transition) : t ∈ ts ++ [t] :=
  List.mem_append_right _ (List.mem_singleton_self t)

/-- An event that makes no request for the field, and after which the field still has what is due. -/
theorem stay (h : c.Settling r ts w) (hdue : c.phase = .debouncing → w'.Due c.field.id)
    (herr : ∀ e ∈ w.errands, e.job.field? = some c.field.id → e.cancelled = false →
      ∃ x ∈ w'.errands, x.id = e.id ∧ x.job = e.job ∧ x.cancelled = false)
    (ht : ¬t.Touches c.field.id) : c.Settling r (ts ++ [t]) w' where
  due := hdue
  running hp hv := by
    obtain ⟨e, he, hi, hc, v, hj, hv⟩ := h.running hp hv
    obtain ⟨x, hx, hi', hj', hc'⟩ := herr e he (by rw [hj]; rfl) hc
    exact ⟨x, hx, hi' ▸ hi, hc', v, hj'.trans hj, hv⟩
  answered := h.answered
  idle hp := (h.idle hp).imp_right fun hn u hu => by
    rcases List.mem_append.mp hu with hu | hu
    · exact hn u hu
    · exact List.mem_singleton.mp hu ▸ ht
  touched hp := by
    obtain ⟨u, hu, hx⟩ := h.touched hp
    exact ⟨u, List.mem_append_left _ hu, hx⟩
  strange hv := by
    obtain ⟨hn, hr⟩ := h.strange hv
    refine ⟨fun u hu v he => ?_, hr⟩
    rcases List.mem_append.mp hu with hu | hu
    · exact hn u hu v he
    · exact ht (List.mem_singleton.mp hu ▸ .inl ⟨v, he⟩)

/-- An event that does not concern the field. -/
theorem frame (h : c.Settling r ts w) (hs : w.Spares w' c.field.id) (ht : ¬t.Touches c.field.id) :
    c.Settling r (ts ++ [t]) w' :=
  h.stay (fun hp => hs.due (h.due hp)) hs.errands ht

/-- An event that puts one slot in place. -/
theorem put (h : ∀ c ∈ w.session.slots, c.Settling r ts w) {b : Slot}
    (hslots : w'.session.slots = (w.session.putSlot b).slots) (hb : b.Settling r (ts ++ [t]) w')
    (hs : ∀ f, b.field.id ≠ f → w.Spares w' f ∧ ¬t.Touches f) :
    ∀ c ∈ w'.session.slots, c.Settling r (ts ++ [t]) w' := by
  intro c hc
  rw [hslots] at hc
  rcases mem_putSlot hc with rfl | ⟨hc, hne⟩
  · exact hb
  · obtain ⟨hsp, ht⟩ := hs c.field.id hne.symm
    exact (h c hc).frame hsp ht

/-- An event that leaves the slots alone. -/
theorem unmoved (h : ∀ c ∈ w.session.slots, c.Settling r ts w) (hslots : w'.session.slots = w.session.slots)
    (hs : ∀ c ∈ w.session.slots, w.Spares w' c.field.id ∧ ¬t.Touches c.field.id) :
    ∀ c ∈ w'.session.slots, c.Settling r (ts ++ [t]) w' := by
  intro c hc
  rw [hslots] at hc
  exact (h c hc).frame (hs c hc).1 (hs c hc).2

theorem edited (h : ∀ c ∈ w.session.slots, c.Settling r ts w) (hw : w.Sound)
    (ha : w.session.slot? a.field.id = some a) (hadv : w.session.schema.advisoryEnabled) {v : Value}
    (he : Edited w.session a v s) (hv : v.eqv v)
    (ho : ∃ o, w.session.validator.validateField a.field.id v = .ok o) :
    ∀ c ∈ (w.absorb s).session.slots,
      c.Settling r (ts ++ [⟨w, .edit a.field.id v, s.2, w.absorb s⟩]) (w.absorb s) := by
  have touches : Transition.Touches ⟨w, .edit a.field.id v, s.2, w.absorb s⟩ a.field.id := .inl ⟨v, rfl⟩
  have others (f : String) (hne : a.field.id ≠ f) :
      ¬Transition.Touches ⟨w, .edit a.field.id v, s.2, w.absorb s⟩ f := by
    rintro (⟨u, hu⟩ | ⟨task, token, u, hu⟩)
    · exact hne (Event.edit.inj hu).1
    · exact Change.edited_quiet he task f token u hu
  have hm := slot?_mem ha
  cases he with
  | broken e he =>
      obtain ⟨o, ho⟩ := ho
      cases he.symm.trans ho
  | unadvised _ _ _ hn =>
      rw [hadv] at hn
      cases hn
  | cleared o _ hb =>
      refine put h (b := a.cleared v o) rfl ?_ fun f hne => ⟨.own hw hm hne rfl ?_, others f hne⟩
      · exact ⟨by simp [Slot.cleared], by simp [Slot.cleared], by simp [Slot.cleared], fun _ => .inl hb,
          by simp [Slot.cleared], by simp [Slot.cleared, hv]⟩
      · simp
  | pausedAlone o _ hb _ hm' =>
      refine put h (b := a.paused v o (some w.session.nextTask)) rfl ?_ fun f hne =>
        ⟨.own hw hm hne rfl ?_, others f hne⟩
      · refine ⟨fun _ => .inl ⟨_, mem_absorb_of_start (List.mem_append_right _ List.mem_cons_self), rfl, rfl⟩,
          by simp [Slot.paused],
          by simp [Slot.paused], by simp [Slot.paused], fun _ => ⟨_, mem_last ts _, touches⟩, ?_⟩
        simp [Slot.paused, hv]
      · simp +contextual
  | pausedTogether o _ hb _ hm' =>
      have due : (w.absorb ({ w.session.putSlot (a.paused v o none) with
          formTimer := some w.session.nextTask, nextTask := w.session.nextTask + 1 },
            cancelOf a.timer ++ (cancelOf w.session.formTimer ++ [.start w.session.nextTask .formTimer,
              .show (a.paused v o none).state]))).FormDue :=
        ⟨_, mem_absorb_of_start (List.mem_append_right _ (List.mem_append_right _ List.mem_cons_self)),
          rfl, rfl, rfl⟩
      refine put h (b := a.paused v o none) rfl ?_ fun f hne => ⟨.absorb ?_ fun _ => due, others f hne⟩
      · refine ⟨fun _ => .inr (.inl due), by simp [Slot.paused], by simp [Slot.paused], by simp [Slot.paused],
          fun _ => ⟨_, mem_last ts _, touches⟩, ?_⟩
        simp [Slot.paused, hv]
      · intro e he hx hj
        simp only [List.any_append, Bool.or_eq_true, any_cancels_cancelOf, decide_eq_true_eq] at hx
        rcases hx with hx | hx | hx
        · rw [(hw.slot a hm).timer_job e he hx] at hj
          exact hne (Option.some.inj hj)
        · rw [hw.form_job e he hx] at hj
          cases hj
        · simp at hx

/-- A request, made in a world that differs in what goes on about the field. -/
theorem asked (h : ∀ c ∈ w.session.slots, c.Settling r ts w) {u : World} (hu : u.Sound)
    (hsame : u.session = w.session) (hsp : ∀ f, a.field.id ≠ f → w.Spares u f)
    (ha : u.session.slot? a.field.id = some a) (timer : Option Nat) {fx : List Effect}
    (hstart : .start u.session.nextTask (.evaluation a.field.id (a.token + 1) a.value) ∈ fx)
    (hfx : ∀ task id k v, Effect.start task (.evaluation id k v) ∈ fx → id = a.field.id)
    (hc : ∀ k, fx.any (·.cancels k) → a.timer = some k ∨ a.inflight = some k)
    (ht : t.effects = fx) (hn : ∀ f v, t.event ≠ .edit f v) :
    ∀ c ∈ (u.absorb ({ u.session.putSlot (({ a with timer } : Slot).requested u.session.nextTask) with
        nextTask := u.session.nextTask + 1 }, fx)).session.slots,
      c.Settling r (ts ++ [t]) (u.absorb
        ({ u.session.putSlot (({ a with timer } : Slot).requested u.session.nextTask) with
          nextTask := u.session.nextTask + 1 }, fx)) := by
  have hm := slot?_mem ha
  refine put h (b := ({ a with timer } : Slot).requested u.session.nextTask) (by rw [← hsame]; rfl) ?_
    fun f hne => ⟨(hsp f hne).trans (.own hu hm hne rfl hc), ?_⟩
  · refine ⟨by simp [Slot.requested], fun _ hv => ?_, by simp [Slot.requested], by simp [Slot.requested],
      fun _ => ⟨t, mem_last ts t, .inr ⟨_, _, _, ht ▸ hstart⟩⟩, fun hv => ?_⟩
    · exact ⟨_, mem_absorb_of_start hstart, rfl, rfl, a.value, rfl, hv⟩
    · obtain ⟨hno, hres⟩ := (h a (hsame ▸ hm)).strange hv
      refine ⟨fun x hx v => ?_, hres⟩
      rcases List.mem_append.mp hx with hx | hx
      · exact hno x hx v
      · exact List.mem_singleton.mp hx ▸ hn _ v
  · rintro (⟨v, hv⟩ | ⟨task, k, v, hv⟩)
    · exact hn f v hv
    · exact hne (hfx task f k v (ht ▸ hv)).symm

/-- The slot of an evaluation that ends, if its answer is dropped. -/
theorem forgotten (h : a.Settling r ts w) (hw : w.Sound) {e : Errand} {token : Nat} {requested : Value}
    {ending : Ending} (he : e ∈ w.errands) (hj : e.job = .evaluation a.field.id token requested)
    (hd : ending = .cancelled ∨ isCurrent (forget a e.id) token requested = false)
    (hend : ending = .findings (r a.field.id requested) ∨ e.cancelled ∧ ending = .cancelled)
    (hsp : (w.without e.id).Spares w' a.field.id) (ht : ¬t.Touches a.field.id) :
    (forget a e.id).Settling r (ts ++ [t]) w' := by
  obtain ⟨-, hvalue, htoken, hphase, -, hresolved⟩ := forget_same a e.id
  have hgone : w.Due a.field.id → (w.without e.id).Due a.field.id := by
    refine fun hdue => hdue.without fun x hx hi => ?_
    obtain rfl := hw.eq_of_id hx he hi
    rw [hj]
    exact ⟨by simp, by simp⟩
  have hrun : (forget a e.id).phase = .pending → (forget a e.id).value.eqv (forget a e.id).value →
      ∃ x ∈ (w.without e.id).errands, (forget a e.id).inflight = some x.id ∧ x.cancelled = false ∧
        ∃ v, x.job = .evaluation (forget a e.id).field.id (forget a e.id).token v ∧
          (forget a e.id).value.eqv v := by
    intro hp hv
    rw [hphase] at hp
    rw [hvalue] at hv
    obtain ⟨x, hx, hi, hc, v, hj', hv'⟩ := h.running hp hv
    have hne : x.id ≠ e.id := by
      intro heq
      obtain rfl := hw.eq_of_id hx he heq
      obtain ⟨-, rfl, rfl⟩ := Job.evaluation.inj (hj'.symm.trans hj)
      have hcur : isCurrent (forget a x.id) a.token v := isCurrent_iff.mpr ⟨htoken.symm, hvalue ▸ hv'⟩
      rcases hd with rfl | hd
      · rcases hend with hend | ⟨hc', -⟩
        · cases hend
        · rw [hc] at hc'
          cases hc'
      · rw [hcur] at hd
        cases hd
    have hsame : forget a e.id = a := by
      rw [forget, if_neg]
      rw [hi]
      exact fun heq => hne (Option.some.inj heq)
    rw [hsame]
    exact ⟨x, mem_without.mpr ⟨hx, hne⟩, hi, hc, v, hj', hv'⟩
  have hkept : (forget a e.id).Settling r ts (w.without e.id) := by
    refine ⟨fun hp => ?_, hrun, ?_, ?_, ?_, ?_⟩
    · rw [forget_field]
      exact hgone (h.due (hphase ▸ hp))
    · rw [hphase, hresolved, hvalue, forget_field]
      exact h.answered
    · rw [hphase, hvalue, forget_field]
      exact h.idle
    · rw [hphase, forget_field]
      exact h.touched
    · rw [hvalue, hresolved, forget_field]
      exact h.strange
  rw [← forget_field a e.id] at hsp ht
  exact hkept.frame hsp ht

/-- The slot of an evaluation whose answer is taken over. -/
theorem ofAnswer {task token : Nat} {requested : Value}
    (hcur : isCurrent (forget a task) token requested) (hr : ∀ field u v, u.eqv v → r field u = r field v)
    (horigin : ∃ x ∈ ts, x.Touches a.field.id) :
    ((forget a task).committed (r a.field.id requested)).Settling r (ts ++ [t]) w' := by
  obtain ⟨-, hvalue, -⟩ := forget_same a task
  have hv := hvalue ▸ (isCurrent_iff.mp hcur).2
  obtain ⟨x, hx, htouch⟩ := horigin
  refine ⟨by simp [Slot.committed], by simp [Slot.committed], fun _ => ?_, by simp [Slot.committed],
    fun _ => ⟨x, List.mem_append_left _ hx, ?_⟩, fun hn => ?_⟩
  · simp only [Slot.committed, forget_field, hvalue]
    exact (hr _ _ _ hv).symm
  · simpa [Slot.committed] using htouch
  · simp only [Slot.committed, hvalue, Value.eqv_self hv, Bool.true_eq_false] at hn

/-- The end of an evaluation that answers with the findings `r`, or is cancelled. -/
theorem settled (h : ∀ c ∈ w.session.slots, c.Settling r ts w) (hw : w.Sound)
    (ha : w.session.slot? a.field.id = some a) {e : Errand} {token : Nat} {requested : Value} {ending : Ending}
    (he : e ∈ w.errands) (hj : e.job = .evaluation a.field.id token requested)
    (hs : Settled w.session a e.id token requested ending s)
    (hr : ∀ field u v, u.eqv v → r field u = r field v)
    (hend : ending = .findings (r a.field.id requested) ∨ e.cancelled ∧ ending = .cancelled)
    (horigin : ∃ x ∈ ts, x.Touches a.field.id) (ht : t.event = .answer e.id ending) (hfx : t.effects = s.2) :
    ∀ c ∈ ((w.without e.id).absorb s).session.slots,
      c.Settling r (ts ++ [t]) ((w.without e.id).absorb s) := by
  have hm := slot?_mem ha
  have hfield := forget_field a e.id
  have hstarts : ∀ task f k v, Effect.start task (.evaluation f k v) ∉ s.2 := by
    cases hs <;> simp
  have hquiet : ∀ f, (w.without e.id).Spares ((w.without e.id).absorb s) f := by
    cases hs <;> exact .quiet rfl (by simp)
  have untouched (f : String) : ¬t.Touches f :=
    Transition.untouched (by simp [ht]) fun task k v hv => hstarts task f k v (hfx ▸ hv)
  have spares (f : String) (hne : a.field.id ≠ f) : w.Spares ((w.without e.id).absorb s) f := by
    refine Spares.trans (.without fun x hx hi _ => ?_) (hquiet f)
    obtain rfl := hw.eq_of_id hx he hi
    rw [hj]
    exact ⟨fun h => hne (Option.some.inj h), by simp⟩
  cases hs with
  | dropped _ hd =>
      refine put h (b := forget a e.id) rfl ?_ fun f hne => ⟨spares f (hfield ▸ hne), untouched f⟩
      exact (h a hm).forgotten hw he hj hd hend (hquiet _) (untouched _)
  | committed found hcur =>
      refine put h (b := (forget a e.id).committed found) rfl ?_ fun f hne =>
        ⟨spares f (hfield ▸ hne), untouched f⟩
      rcases hend with hend | ⟨-, hend⟩
      · cases hend
        exact ofAnswer hcur hr horigin
      · cases hend
  | fellBack => simp at hend

end Slot.Settling
end Formwork
