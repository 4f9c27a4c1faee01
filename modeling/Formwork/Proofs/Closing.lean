import Formwork.Proofs.Tracking

/-!
A closed session. No pause of it ends any more and no edit is taken, so its fields stay as they are once the tasks that
were cancelled have ended. Only a flush still makes requests: for the fields that paused when the session was closed.
-/

namespace Formwork

open World Session

/-! ## Histories that go on -/

theorem History.of_last {ts : List World.Transition} {t : World.Transition} {w : World} (h : History (ts ++ [t]) w) :
    w = t.after := by
  generalize hl : ts ++ [t] = l at h
  cases h with
  | opened => simp at hl
  | step _ hs =>
      obtain ⟨-, ht⟩ := List.append_inj' hl rfl
      obtain rfl := List.singleton_inj.mp ht
      rfl

/-- What holds in a world that a history reaches, and is kept by each further event, holds as the history goes on. -/
theorem History.onward {us : List World.Transition} {u : World} (hu : History us u) (hne : us ≠ [])
    {P : List World.Transition → World → Prop} (hstart : P [] u)
    (hstep : ∀ xs v event fx v', History (us ++ xs) v → v.Step event fx v' → P xs v →
      P (xs ++ [⟨v, event, fx, v'⟩]) v') :
    ∀ xs w, History (us ++ xs) w → P xs w := by
  intro xs w h
  generalize hl : us ++ xs = l at h
  induction h generalizing xs with
  | opened => exact absurd (List.append_eq_nil_iff.mp hl).1 hne
  | @step ts v v' event fx hh hs ih =>
      rcases xs.eq_nil_or_concat with rfl | ⟨xs, x, rfl⟩
      · rw [List.append_nil] at hl
        subst hl
        obtain rfl : u = v' := hu.of_last
        exact hstart
      · rw [List.concat_eq_append, ← List.append_assoc] at hl
        obtain ⟨rfl, hx⟩ := List.append_inj' hl rfl
        obtain rfl := List.singleton_inj.mp hx
        rw [List.concat_eq_append]
        exact hstep xs v event fx v' hh hs (ih xs rfl)

namespace World

variable {w w' : World} {event : Event} {fx : List Effect} {a b c : Slot} {field : String}

/-! ## Shut worlds -/

/-- The session is closed, and no pause can end any more. -/
structure Shut (w : World) : Prop where
  closed : w.session.closed
  pauses : ∀ e ∈ w.errands, ¬e.job.Light → e.cancelled
  visits : ∀ id, .valued id ∉ w.visits

theorem Step.close_starts_none (hs : w.Step .close fx w') (task : Nat) (j : Job) : .start task j ∉ fx := by
  cases hs with
  | close => simp [Session.close]

/-- A close cancels every pause: the session knows all of those that can still end. -/
theorem Step.shut_of_close (hs : w.Step .close fx w')
    (hdropped : ∀ e ∈ w.errands, e.id ∉ w.session.tasks → e.Dropped w.session) : w'.Shut := by
  cases hs with
  | close hv =>
      refine ⟨rfl, fun x hx hj => ?_, by simp [absorb, hv]⟩
      rcases absorb_errand _ hx with ⟨e, he, hl, hcancel⟩ | hstart
      · by_cases hk : e.id ∈ w.session.tasks
        · exact hcancel (by simpa [Session.close, Effect.cancels] using hk)
        · exact ((hdropped e he hk).later hl).pause hj
      · simp [Session.close] at hstart

theorem Step.shut (hs : w.Step event fx w') (h : w.Shut) : w'.Shut where
  closed := hs.alike.closed h.closed
  pauses x hx hj := by
    rcases hs.errand hx with ⟨e, he, hl⟩ | hstart
    · exact hl.still_cancelled (h.pauses e he (hl.job ▸ hj))
    · obtain ⟨-, -, -, -, hopen, -⟩ := hs.starts_pause hstart hj
      rw [h.closed] at hopen
      cases hopen
  visits id := by
    cases hs with
    | flush => simp [absorb]
    | validateAll => simpa using h.visits id
    | visit v rest hv => exact fun hm => h.visits id (hv ▸ List.mem_cons_of_mem v hm)
    | formPauseOver e _ he hj _ hc =>
        rw [h.pauses e he (by simp [hj, Job.Light])] at hc
        cases hc
    | _ => exact h.visits id

/-- Only a flush makes a walk come to the fields that pause. -/
theorem Step.pausing_visits (hs : w.Step event fx w') (hm : .pausing field ∈ w'.visits) :
    .pausing field ∈ w.visits ∨ event = .flush := by
  cases hs with
  | flush => exact .inr rfl
  | validateAll => exact .inl (by simpa using hm)
  | visit v rest hv => exact .inl (hv ▸ List.mem_cons_of_mem v hm)
  | formPauseOver => simp at hm
  | _ => exact .inl hm

/-- What an event does to a field of a closed session. -/
inductive Rests (w : World) (a : Slot) (event : Event) (fx : List Effect) (b : Slot) : Prop
  | kept (phase : b.phase = a.phase) (advisory : b.advisory = a.advisory) (token : b.token = a.token)
      (inflight : ∀ k, b.inflight = some k → a.inflight = some k)
      (quiet : ∀ task k v, Effect.start task (.evaluation a.field.id k v) ∉ fx)
  | answered (e : Errand) (requested : Value) (he : e ∈ w.errands)
      (hj : e.job = .evaluation a.field.id a.token requested) (phase : b.phase ≠ .debouncing)
      (token : b.token = a.token) (inflight : ∀ k, b.inflight = some k → a.inflight = some k)
      (quiet : ∀ task k v, Effect.start task (.evaluation a.field.id k v) ∉ fx)
  | flushed (hv : .pausing a.field.id ∈ w.visits) (hp : a.phase = .debouncing)

theorem Alters.rests (h : w.Alters a event fx b) (hw : w.Shut) : b.value = a.value ∧ w.Rests a event fx b := by
  have open_false {p : Prop} (hc : w.session.closed = false) : p := by
    rw [hw.closed] at hc
    cases hc
  cases h with
  | same quiet => exact ⟨rfl, .kept rfl rfl rfl (fun _ h => h) quiet⟩
  | broken _ _ hc | cleared _ _ hc | unadvised _ _ hc | pausedAlone _ _ hc | pausedTogether _ _ hc =>
      exact open_false hc
  | timerFired e he hj hc =>
      rw [hw.pauses e he (by simp [hj, Job.Light])] at hc
      cases hc
  | flushed rest hv hp => exact ⟨rfl, .flushed (hv ▸ List.mem_cons_self) hp⟩
  | gathered rest hv => exact absurd (hv ▸ List.mem_cons_self) (hw.visits _)
  | dropped e =>
      obtain ⟨-, hvalue, htoken, hphase, hadvisory, -⟩ := forget_same a e.id
      exact ⟨hvalue, .kept hphase hadvisory htoken (fun _ => forget_inflight) (by simp)⟩
  | committed e requested found he hj =>
      obtain ⟨-, hvalue, htoken, -⟩ := forget_same a e.id
      exact ⟨hvalue, .answered e requested he hj (by simp [Slot.committed]) htoken (fun _ => forget_inflight) (by simp)⟩
  | fellBack e requested he hj =>
      obtain ⟨-, hvalue, htoken, -⟩ := forget_same a e.id
      refine ⟨hvalue, .answered e requested he hj ?_ htoken (fun _ => forget_inflight) (by simp)⟩
      simp only [Slot.fellBack]
      split <;> simp
  | recorded => exact ⟨rfl, .kept rfl rfl rfl (fun _ h => h) (by simp)⟩

/-- The field as it was when the session was closed, but for answers that came since then. -/
structure Remains (w : World) (a c : Slot) : Prop where
  slot : w.session.slot? a.field.id = some c
  token : c.token = a.token
  inflight : ∀ k, c.inflight = some k → a.inflight = some k
  phase : a.phase ≠ .debouncing → c.phase ≠ .debouncing
  visits : a.phase = .debouncing → .pausing a.field.id ∉ w.visits

/-- No evaluation runs for the last request of the field. -/
def Still (w : World) (a : Slot) : Prop := ∀ e ∈ w.errands, ∀ v, e.job ≠ .evaluation a.field.id a.token v

/-- A field that no flush comes to makes no more requests, and only the answer to its last request changes it. -/
theorem Remains.step (h : w.Remains a c) (hs : w.Step event fx w') (hw : w.Shut)
    (hflush : a.phase = .debouncing → event ≠ .flush) :
    ∃ d, w'.Remains a d ∧ (∀ task k v, Effect.start task (.evaluation a.field.id k v) ∉ fx) ∧
      (w.Still a → d.phase = c.phase ∧ d.advisory = c.advisory) := by
  have hid : c.field.id = a.field.id := slot?_id h.slot
  have hc := h.slot
  rw [← hid] at hc
  obtain ⟨d, hd, halt⟩ := hs.alters hc
  rw [hid] at hd
  have visits (hp : a.phase = .debouncing) : .pausing a.field.id ∉ w'.visits := fun hm =>
    (hs.pausing_visits hm).elim (h.visits hp) (hflush hp)
  cases (halt.rests hw).2 with
  | kept phase advisory token inflight quiet =>
      have hremains : w'.Remains a d :=
        ⟨hd, token.trans h.token, fun k hk => h.inflight k (inflight k hk), fun hp => phase ▸ h.phase hp, visits⟩
      exact ⟨d, hremains, hid ▸ quiet, fun _ => ⟨phase, advisory⟩⟩
  | answered e requested he hj phase token inflight quiet =>
      refine ⟨d, ⟨hd, token.trans h.token, fun k hk => h.inflight k (inflight k hk), fun _ => phase, visits⟩,
        hid ▸ quiet, fun hstill => ?_⟩
      rw [hid, h.token] at hj
      exact absurd hj (hstill e he requested)
  | flushed hv hp =>
      rw [hid] at hv
      by_cases ha : a.phase = .debouncing
      · exact absurd hv (h.visits ha)
      · exact absurd hp (h.phase ha)

theorem Still.step (h : w.Still a) (hs : w.Step event fx w')
    (quiet : ∀ task k v, Effect.start task (.evaluation a.field.id k v) ∉ fx) : w'.Still a := by
  intro x hx v hj
  rcases hs.errand hx with ⟨e, he, hl⟩ | hstart
  · exact h e he v (hl.job ▸ hj)
  · exact quiet _ _ _ (hj ▸ hstart)

namespace Transition

variable {t : Transition} {mid : List Transition}

/-- Every task that the session knew of has ended: those who wait for the close go on. -/
def Returned (t : Transition) (w : World) : Prop := ∀ e ∈ w.errands, e.id ∉ t.before.session.tasks

/-- The field paused when the session was closed, and a flush comes later. -/
def FlushedAfter (t : Transition) (later : List Transition) (field : String) : Prop :=
  (∃ a, t.before.session.slot? field = some a ∧ a.phase = .debouncing) ∧ ∃ x ∈ later, x.event = .flush

theorem FlushedAfter.append {field : String} (h : t.FlushedAfter mid field) (more : List Transition) :
    t.FlushedAfter (mid ++ more) field := by
  obtain ⟨hp, x, hx, hflush⟩ := h
  exact ⟨hp, x, List.mem_append_left _ hx, hflush⟩

end Transition

end World

section

variable {pre mid post : List World.Transition} {t : World.Transition} {u w : World} {a : Slot} {field : String}

theorem History.shut (h : History (pre ++ t :: mid) w) (hc : t.event = .close) : w.Shut := by
  obtain ⟨hb, hs, hafter⟩ := h.prefix_step
  rw [hc] at hs
  refine hafter.onward (by simp) (P := fun _ w => w.Shut) (hs.shut_of_close fun _ he hk => hb.dropped he hk)
    (fun _ _ _ _ _ _ hs ih => hs.shut ih) mid w ?_
  simpa using h

/-- A field that no flush comes to after the close. -/
theorem History.remains (h : History (pre ++ t :: mid) w) (hc : t.event = .close)
    (ha : t.before.session.slot? field = some a) (hno : ¬t.FlushedAfter mid field) : ∃ c, w.Remains a c := by
  obtain ⟨-, hs, hafter⟩ := h.prefix_step
  obtain rfl := slot?_id ha
  rw [hc] at hs
  refine hafter.onward (by simp) (P := fun xs w => ¬t.FlushedAfter xs a.field.id → ∃ c, w.Remains a c) (fun _ => ?_)
    (fun xs v event fx v' hh hs ih hno => ?_) mid w (by simpa using h) hno
  · generalize t.effects = fx at hs
    generalize t.after = v at hs ⊢
    cases hs with
    | close hv => exact ⟨a, ha, rfl, fun _ h => h, fun h => h, by simp [absorb, hv]⟩
  · obtain ⟨c, hremains⟩ := ih fun hflush => hno (hflush.append _)
    have hshut : v.Shut := (show History (pre ++ t :: xs) v by simpa using hh).shut hc
    obtain ⟨d, hd, -⟩ := hremains.step hs hshut fun hp hev =>
      hno ⟨⟨a, ha, hp⟩, _, List.mem_append_right _ (List.mem_singleton_self _), hev⟩
    exact ⟨d, hd⟩

theorem History.still (h : History (pre ++ t :: mid) u) (hc : t.event = .close)
    (ha : t.before.session.slot? field = some a) (hno : ¬t.FlushedAfter mid field) (hr : t.Returned u) : u.Still a := by
  intro e he v hj
  obtain ⟨c, hremains⟩ := h.remains hc ha hno
  have hid : c.field.id = a.field.id := slot?_id hremains.slot
  have hinflight : c.inflight = some e.id :=
    h.tracked.inflight c (slot?_mem hremains.slot) e he v (by rw [hid, hremains.token, hj])
  exact hr e he (mem_tasks.mpr (.inr ⟨a, slot?_mem ha, .inr (hremains.inflight _ hinflight)⟩))

theorem History.rests (hu : History (pre ++ t :: mid) u) (h : History ((pre ++ t :: mid) ++ post) w)
    (hc : t.event = .close) (ha : t.before.session.slot? field = some a) (hno : ¬t.FlushedAfter (mid ++ post) field)
    (hr : t.Returned u) {b : Slot} (hb : u.session.slot? field = some b) :
    w.Still a ∧ ∃ c, w.Remains a c ∧ c.phase = b.phase ∧ c.advisory = b.advisory := by
  obtain rfl := slot?_id ha
  refine hu.onward (by simp) (P := fun xs w => ¬t.FlushedAfter (mid ++ xs) a.field.id →
      w.Still a ∧ ∃ c, w.Remains a c ∧ c.phase = b.phase ∧ c.advisory = b.advisory) (fun hno => ?_)
    (fun xs v event fx v' hh hs ih hno => ?_) post w h hno
  · rw [List.append_nil] at hno
    obtain ⟨c, hremains⟩ := hu.remains hc ha hno
    obtain rfl := Option.some.inj (hremains.slot.symm.trans hb)
    exact ⟨hu.still hc ha hno hr, c, hremains, rfl, rfl⟩
  · rw [← List.append_assoc] at hno
    obtain ⟨hstill, c, hremains, hphase, hadvisory⟩ := ih fun hflush => hno (hflush.append _)
    have hshut : v.Shut := (show History (pre ++ t :: (mid ++ xs)) v by simpa using hh).shut hc
    obtain ⟨d, hd, hquiet, hsame⟩ := hremains.step hs hshut fun hp hev =>
      hno ⟨⟨a, ha, hp⟩, _, List.mem_append_right _ (List.mem_singleton_self _), hev⟩
    obtain ⟨hp, hadv⟩ := hsame hstill
    exact ⟨hstill.step hs hquiet, d, hd, hp.trans hphase, hadv.trans hadvisory⟩

theorem History.values_kept (h : History (pre ++ t :: mid) w) (hc : t.event = .close)
    (ha : t.before.session.slot? field = some a) : ∃ c, w.session.slot? field = some c ∧ c.value = a.value := by
  obtain ⟨-, hs, hafter⟩ := h.prefix_step
  obtain rfl := slot?_id ha
  rw [hc] at hs
  refine hafter.onward (by simp) (P := fun _ w => ∃ c, w.session.slot? a.field.id = some c ∧ c.value = a.value) ?_
    (fun xs v event fx v' hh hs ih => ?_) mid w (by simpa using h)
  · generalize t.effects = fx at hs
    generalize t.after = v at hs ⊢
    cases hs
    exact ⟨a, ha, rfl⟩
  · obtain ⟨c, hslot, hvalue⟩ := ih
    have hshut : v.Shut := (show History (pre ++ t :: xs) v by simpa using hh).shut hc
    have hid := slot?_id hslot
    rw [← hid] at hslot
    obtain ⟨d, hd, halt⟩ := hs.alters hslot
    exact ⟨d, hid ▸ hd, (halt.rests hshut).1.trans hvalue⟩

end

end Formwork
