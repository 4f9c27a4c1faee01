import Formwork.Proofs.Closing
import Formwork.Proofs.Reentries
import Formwork.Proofs.Tracking

/-!
What a flush comes to: every field that pauses is requested at once, and the pauses of the others have no timer. A timer
goes on only if a listener edits a field meanwhile, or if it is that of a field that was resolved in its pause.
-/

namespace Formwork

open World Session

namespace Session

variable {s : Session} {a : Slot} {id : String} {v : Value} {k : Nat}

theorem edit_cancels (hk : (s.edit id v).1.2.any (·.cancels k)) :
    s.formTimer = some k ∨ ∃ a, s.slot? id = some a ∧ s.closed = false ∧ (a.timer = some k ∨ a.inflight = some k) := by
  rcases s.edit_cases id v with ⟨he, -⟩ | ⟨a, ha, hc, he⟩
  · rw [he] at hk
    cases hk
  · generalize (s.edit id v).1 = r at he hk
    have own (h : a.timer = some k ∨ a.inflight = some k) : s.formTimer = some k ∨
        ∃ a, s.slot? id = some a ∧ s.closed = false ∧ (a.timer = some k ∨ a.inflight = some k) := .inr ⟨a, ha, hc, h⟩
    cases he with
    | broken => cases hk
    | cleared => exact own (by simpa using hk)
    | unadvised | pausedAlone => exact own (.inl (by simpa using hk))
    | pausedTogether =>
        rcases (by simpa using hk : a.timer = some k ∨ s.formTimer = some k) with hk | hk
        · exact own (.inl hk)
        · exact .inl hk

theorem Edited.other {r : Stepped} (h : Edited s a v r) (hne : a.field.id ≠ id) : r.1.slot? id = s.slot? id := by
  cases h with
  | broken => exact slot?_putSlot_of_ne s (b := { a with value := v }) hne
  | cleared o => exact slot?_putSlot_of_ne s (b := a.cleared v o) hne
  | unadvised o => exact slot?_putSlot_of_ne s (b := a.checked v o) hne
  | pausedAlone o => exact slot?_putSlot_of_ne s (b := a.paused v o (some s.nextTask)) hne
  | pausedTogether o => exact slot?_putSlot_of_ne s (b := a.paused v o none) hne

theorem dispatchIfPausing_pausing (ha : s.slot? a.field.id = some a) (hp : a.phase = .debouncing) :
    s.dispatchIfPausing a.field.id =
      ({ s.putSlot (({ a with timer := none } : Slot).requested s.nextTask) with nextTask := s.nextTask + 1 },
        cancelOf a.timer ++ asking s a (({ a with timer := none } : Slot).requested s.nextTask)) := by
  rcases s.dispatchIfPausing_cases a.field.id with ⟨-, hno⟩ | ⟨c, hc, -, he⟩
  · exact absurd hp (hno a ha)
  · obtain rfl := Option.some.inj (hc.symm.trans ha)
    rw [he, dispatch_untimed hc]
    rfl

theorem dispatchIfPausing_idle (ha : s.slot? a.field.id = some a) (hp : a.phase ≠ .debouncing) :
    s.dispatchIfPausing a.field.id = (s, []) := by
  rcases s.dispatchIfPausing_cases a.field.id with ⟨he, -⟩ | ⟨c, hc, hpc, -⟩
  · exact he
  · obtain rfl := Option.some.inj (hc.symm.trans ha)
    exact absurd hpc hp

end Session

namespace World

variable {w w' : World} {event : Event} {fx : List Effect} {a b c d : Slot} {field : String} {k : Nat}

/-- The tasks that are cancelled are not those of the field. -/
def Clear (w : World) (fx : List Effect) (field : String) : Prop :=
  ∀ k, fx.any (·.cancels k) → w.session.formTimer = some k ∨
    ∃ g ∈ w.session.slots, g.field.id ≠ field ∧ (g.timer = some k ∨ g.inflight = some k)

/-- What an edit, or a flush that comes to a field, does to a slot. -/
inductive Sweeps (w : World) (c : Slot) (event : Event) (fx : List Effect) (w' : World) (d : Slot) : Prop
  | left (hd : d = c) (hclear : w.Clear fx c.field.id)
      (hvisits : c.phase = .debouncing → .pausing c.field.id ∈ w.visits → .pausing c.field.id ∈ w'.visits)
  | asked (hp : c.phase = .debouncing) (hd : d = ({ c with timer := none } : Slot).requested w.session.nextTask)
      (hstart : { id := w.session.nextTask, job := .evaluation c.field.id (c.token + 1) c.value } ∈ w'.errands)
  | edited (he : Transition.Edits ⟨w, event, fx, w'⟩ c.field.id) (hvisits : w'.visits = w.visits)
      (hd : d.timer = c.timer ∧ d.phase = c.phase ∨ d.timer = none ∨ d.timer = some w.session.nextTask)

theorem edit_sweeps (hc : w.session.slot? c.field.id = some c) (id : String) (v : Value) :
    ∃ d, (w.session.edit id v).1.1.slot? c.field.id = some d ∧ w.Sweeps c (.edit id v) (w.session.edit id v).1.2
      (w.absorb (w.session.edit id v).1) d := by
  have hclear := @edit_cancels w.session id v
  rcases w.session.edit_cases id v with ⟨he, -⟩ | ⟨a, ha, hcl, he⟩
  · rw [he]
    exact ⟨c, hc, .left rfl (by simp [Clear]) fun _ hm => hm⟩
  · obtain rfl := slot?_id ha
    by_cases hf : a.field.id = c.field.id
    · obtain rfl : a = c := Option.some.inj (ha.symm.trans (hf ▸ hc))
      have edits : Transition.Edits ⟨w, .edit a.field.id v, (w.session.edit a.field.id v).1.2,
          w.absorb (w.session.edit a.field.id v).1⟩ a.field.id := ⟨hcl, v, rfl⟩
      generalize (w.session.edit a.field.id v).1 = r at he edits
      cases he with
      | broken => exact ⟨_, slot?_putSlot_self (b := { a with value := v }) hc, .edited edits rfl (.inl ⟨rfl, rfl⟩)⟩
      | cleared o => exact ⟨_, slot?_putSlot_self (b := a.cleared v o) hc, .edited edits rfl (.inr (.inl rfl))⟩
      | unadvised o => exact ⟨_, slot?_putSlot_self (b := a.checked v o) hc, .edited edits rfl (.inr (.inl rfl))⟩
      | pausedAlone o =>
          exact ⟨_, slot?_putSlot_self (b := a.paused v o (some w.session.nextTask)) hc, .edited edits rfl (.inr (.inr rfl))⟩
      | pausedTogether o =>
          exact ⟨_, slot?_putSlot_self (b := a.paused v o none) hc, .edited edits rfl (.inr (.inl rfl))⟩
    · refine ⟨c, (he.other hf).trans hc, .left rfl (fun k hk => ?_) fun _ hm => hm⟩
      rcases hclear hk with hform | ⟨g, hg, -, hk⟩
      · exact .inl hform
      · exact .inr ⟨g, slot?_mem hg, by rwa [slot?_id hg], hk⟩

theorem pausing_sweeps (hc : w.session.slot? c.field.id = some c) {rest : List Visit}
    (hv : w.visits = .pausing field :: rest) :
    ∃ d, (w.session.dispatchIfPausing field).1.slot? c.field.id = some d ∧
      w.Sweeps c .visit (w.session.dispatchIfPausing field).2
        ({ w with visits := rest }.absorb (w.session.dispatchIfPausing field)) d := by
  by_cases hf : field = c.field.id
  · subst hf
    by_cases hp : c.phase = .debouncing
    · rw [dispatchIfPausing_pausing hc hp]
      refine ⟨_, slot?_putSlot_self (b := ({ c with timer := none } : Slot).requested w.session.nextTask) hc,
        .asked hp rfl (mem_absorb_of_start ?_)⟩
      exact List.mem_append_right _ (List.mem_append_right _ List.mem_cons_self)
    · rw [dispatchIfPausing_idle hc hp]
      exact ⟨c, hc, .left rfl (by simp [Clear]) fun hp' => absurd hp' hp⟩
  · rcases w.session.dispatchIfPausing_cases field with ⟨he, -⟩ | ⟨g, hg, hp, -⟩
    · rw [he]
      refine ⟨c, hc, .left rfl (by simp [Clear]) fun _ hm => ?_⟩
      rw [hv] at hm
      exact (List.mem_cons.mp hm).resolve_left fun h => hf (Visit.pausing.inj h).symm
    · obtain rfl := slot?_id hg
      rw [dispatchIfPausing_pausing hg hp]
      have hother := slot?_putSlot_of_ne w.session (b := ({ g with timer := none } : Slot).requested w.session.nextTask) hf
      refine ⟨c, hother.trans hc, .left rfl (fun k hk => .inr ⟨g, slot?_mem hg, hf, ?_⟩) fun _ hm => ?_⟩
      · cases hstale : w.session.cancelStale with
        | true => simpa [asking, hstale] using hk
        | false => exact .inl (by simpa [asking, hstale] using hk)
      · rw [hv] at hm
        exact (List.mem_cons.mp hm).resolve_left fun h => hf (Visit.pausing.inj h).symm

/-- What happens during the walk of a flush: it comes to a field, or a listener edits one. -/
def Transition.OfWalk (t : Transition) : Prop := t.event = .visit ∨ ∃ id v, t.event = .edit id v

theorem Step.sweeps (hs : w.Step event fx w') (hv : ∀ x ∈ w.visits, ∃ id, x = .pausing id)
    (hev : Transition.OfWalk ⟨w, event, fx, w'⟩) (hc : w.session.slot? c.field.id = some c) :
    ∃ d, w'.session.slot? c.field.id = some d ∧ w.Sweeps c event fx w' d := by
  cases hs with
  | edit id v => exact edit_sweeps hc id v
  | visit v rest hvisits =>
      obtain ⟨id, rfl⟩ := hv v (hvisits ▸ List.mem_cons_self)
      exact pausing_sweeps hc hvisits
  | _ => rcases hev with h | ⟨id, v, h⟩ <;> cases h

theorem Step.walk (hs : w.Step event fx w') (hev : Transition.OfWalk ⟨w, event, fx, w'⟩) :
    (∀ x ∈ w'.visits, x ∈ w.visits) ∧ ∀ e ∈ w.errands, fx.any (·.cancels e.id) = false → e ∈ w'.errands := by
  cases hs with
  | edit id v => exact ⟨fun x hx => hx, fun e he hn => mem_absorb_of_mem he hn⟩
  | visit v rest hv => exact ⟨fun x hx => hv ▸ List.mem_cons_of_mem v hx, fun e he hn => mem_absorb_of_mem he hn⟩
  | _ => rcases hev with h | ⟨id, v, h⟩ <;> cases h

end World

/-- The flush is still to come to the field, or its value is being evaluated. -/
inductive Slot.Swept (a : Slot) (w : World) : Prop
  | ahead (hc : w.session.slot? a.field.id = some a) (hp : a.phase = .debouncing → .pausing a.field.id ∈ w.visits)
  | asked (e : Errand) (hp : a.phase = .debouncing) (he : e ∈ w.errands)
      (hc : w.session.slot? a.field.id = some (({ a with timer := none } : Slot).requested e.id))
      (hj : e.job = .evaluation a.field.id (a.token + 1) a.value) (hcancel : e.cancelled = false)

/-- The field has the timer that it had before the flush, and pauses only if the flush is still to come to it. -/
structure Slot.Spared (a : Slot) (timer : Nat) (w : World) : Prop where
  timer : a.timer = some timer
  slot : ∃ c, w.session.slot? a.field.id = some c ∧ c.phase = a.phase
  ahead : a.phase = .debouncing → .pausing a.field.id ∈ w.visits

section

variable {pre mid : List Transition} {t : Transition} {w w' : World} {event : Event} {fx : List Effect} {a c : Slot}
  {e : Errand}

theorem Slot.Swept.step (h : a.Swept w) (hw : w.Sound) (hs : w.Step event fx w')
    (hv : ∀ x ∈ w.visits, ∃ id, x = .pausing id) (hev : Transition.OfWalk ⟨w, event, fx, w'⟩)
    (hno : ¬Transition.Edits ⟨w, event, fx, w'⟩ a.field.id) : a.Swept w' := by
  cases h with
  | ahead hc hp =>
      obtain ⟨d, hd, hsweeps⟩ := hs.sweeps hv hev hc
      cases hsweeps with
      | left heq _ hvisits => exact .ahead (heq ▸ hd) fun hdeb => hvisits hdeb (hp hdeb)
      | asked hdeb heq hstart => exact .asked _ hdeb hstart (heq ▸ hd) rfl rfl
      | edited he => exact absurd he hno
  | asked e hp he hc hj hcancel =>
      obtain ⟨d, hd, hsweeps⟩ := hs.sweeps (c := ({ a with timer := none } : Slot).requested e.id) hv hev hc
      cases hsweeps with
      | left heq hclear =>
          -- what is cancelled is about other fields, and so not the evaluation
          refine .asked e hp ((hs.walk hev).2 e he (Bool.eq_false_iff.mpr fun hk => ?_)) (heq ▸ hd) hj hcancel
          rcases hclear e.id hk with hform | ⟨g, hg, hne, htimer | hinflight⟩
          · cases (hw.form_job e he hform).symm.trans hj
          · cases ((hw.slot g hg).timer_job e he htimer).symm.trans hj
          · obtain ⟨token, v, hjob⟩ := (hw.slot g hg).inflight_job e he hinflight
            exact hne (Job.evaluation.inj (hjob.symm.trans hj)).1
      | asked hdeb => cases hdeb
      | edited he => exact absurd he hno

theorem Slot.Spared.step (h : a.Spared e.id w) (hw : w.Sound) (hs : w.Step event fx w')
    (hv : ∀ x ∈ w.visits, ∃ id, x = .pausing id) (hev : Transition.OfWalk ⟨w, event, fx, w'⟩) (he : e ∈ w.errands)
    (hj : e.job = .fieldTimer a.field.id) {x : Errand} (hx : x ∈ w'.errands) (hl : e.Later x) (hcancel : x.cancelled = false) :
    a.Spared x.id w' := by
  obtain ⟨htimer, ⟨c, hc, hphase⟩, hahead⟩ := h
  have hfield := slot?_id hc
  rw [← hfield] at hc hj
  obtain ⟨d, hd, hsweeps⟩ := hs.sweeps hv hev hc
  have hcfield : d.field.id = c.field.id := slot?_id hd
  have hticking : d.timer = some x.id :=
    ((hs.sound hw).slot d (slot?_mem hd)).ticking x hx (hcfield ▸ hl.job.trans hj) hcancel
  rw [hfield] at hd
  cases hsweeps with
  | left heq _ hvisits =>
      refine ⟨hl.id ▸ htimer, ⟨d, hd, heq ▸ hphase⟩, fun hdeb => ?_⟩
      exact hfield ▸ hvisits (hphase.trans hdeb) (hfield ▸ hahead hdeb)
  | asked _ heq =>
      rw [heq] at hticking
      cases hticking
  | edited _ hvisits hchange =>
      rcases hchange with ⟨-, hp⟩ | hnone | hnew
      · exact ⟨hl.id ▸ htimer, ⟨d, hd, hp.trans hphase⟩, fun hdeb => hvisits ▸ hahead hdeb⟩
      · cases hnone.symm.trans hticking
      · -- a new timer has a new number
        have hlt := hw.lt e he
        rw [← hl.id, ← Option.some.inj (hnew.symm.trans hticking)] at hlt
        exact absurd hlt (Nat.lt_irrefl _)

/-- Where the pause is that of the form, no field has a timer. -/
theorem History.untimed {ts : List Transition} (h : History ts w) (hm : w.session.mode = .form) :
    ∀ c ∈ w.session.slots, c.timer = none := by
  induction h with
  | opened hs =>
      obtain ⟨-, -, hf⟩ := hs.fresh
      exact fun c hc => (hf.slots c hc).timer
  | @step ts w w' event fx hh hs ih =>
      intro b hb
      have hm := hs.alike.mode ▸ hm
      obtain ⟨a, ha, -, halt⟩ := hs.alters_of_after ((hs.sound hh.sound).slot?_of_mem hb)
      have hnone := ih hm a (slot?_mem ha)
      cases halt with
      | same | broken | gathered | recorded => exact hnone
      | cleared | unadvised | pausedTogether | timerFired | flushed => rfl
      | pausedAlone _ _ _ _ _ _ hfield => cases hm.symm.trans hfield
      | dropped e | committed e | fellBack e => exact (forget_same a e.id).1.trans hnone

structure World.Flushing (t : Transition) (mid : List Transition) (w : World) : Prop where
  visits : ∀ x ∈ w.visits, ∃ id, x = .pausing id
  swept : ∀ a ∈ t.before.session.slots, (∀ x ∈ mid, ¬x.Edits a.field.id) → a.Swept w
  timers : ∀ e ∈ w.errands, ¬e.job.Light → e.cancelled = false →
    (∃ x ∈ mid, (∃ field, x.Edits field) ∧ .start e.id e.job ∈ x.effects) ∨
      ∃ a ∈ t.before.session.slots, e.job = .fieldTimer a.field.id ∧ a.Spared e.id w

theorem World.Flushing.begun (hw : w.Sound) (hsingle : w.Single) (habout : ∀ e ∈ w.errands, ∀ f, e.job.field? = some f →
    f ∈ w.session.ids) (hs : w.Step .flush fx w') : w'.Flushing ⟨w, .flush, fx, w'⟩ [] := by
  have ahead {a : Slot} (ha : a ∈ w.session.slots) : .pausing a.field.id ∈ w'.visits := by
    cases hs
    exact List.mem_map_of_mem (List.mem_map_of_mem ha)
  have hslots : w'.session.slots = w.session.slots := by
    cases hs
    rfl
  have hslot {a : Slot} (ha : a ∈ w.session.slots) : w'.session.slot? a.field.id = some a := by
    rw [slot?, hslots]
    exact hw.slot?_of_mem ha
  refine ⟨?_, fun a ha _ => .ahead (hslot ha) fun _ => ahead ha, fun x hx hj hc => .inr ?_⟩
  · cases hs
    intro x hx
    obtain ⟨id, -, rfl⟩ := List.mem_map.mp hx
    exact ⟨id, rfl⟩
  · rcases hs.errand_cancelled hx with ⟨e, he, hl, hcancel⟩ | hstart
    · have hopen := hl.cancelled hc
      cases hjob : e.job with
      | evaluation => simp [hl.job, hjob, Job.Light] at hj
      | formTimer =>
          -- the flush cancels the pause of the form
          have hform := hsingle e he hjob hopen
          have hx : fx.any (·.cancels e.id) := by
            cases hs
            simp [beginFlush, hform]
          cases hc.symm.trans (hcancel hx)
      | fieldTimer f =>
          obtain ⟨a, ha⟩ := slot?_isSome_iff.mpr (habout e he f (by rw [hjob]; rfl))
          obtain rfl := slot?_id ha
          have hm := slot?_mem ha
          have htimer := (hw.slot a hm).ticking e he hjob hopen
          exact ⟨a, hm, hl.job.trans hjob, hl.id ▸ htimer, ⟨a, hslot hm, rfl⟩, fun _ => ahead hm⟩
    · cases hs
      simp [beginFlush] at hstart

theorem World.Flushing.step (h : w.Flushing t mid) (hw : w.Sound) (hs : w.Step event fx w')
    (hev : Transition.OfWalk ⟨w, event, fx, w'⟩) : w'.Flushing t (mid ++ [⟨w, event, fx, w'⟩]) where
  visits x hx := h.visits x ((hs.walk hev).1 x hx)
  swept a ha hno :=
    (h.swept a ha fun x hx => hno x (List.mem_append_left _ hx)).step hw hs h.visits hev
      (hno _ (List.mem_append_right _ (List.mem_singleton_self _)))
  timers x hx hj hc := by
    rcases hs.errand_cancelled hx with ⟨e, he, hl, -⟩ | hstart
    · rcases h.timers e he (hl.job ▸ hj) (hl.cancelled hc) with ⟨r, hr, hedits, hstart⟩ | ⟨a, ha, hjob, hspared⟩
      · exact .inl ⟨r, List.mem_append_left _ hr, hedits, by rw [hl.id, hl.job]; exact hstart⟩
      · exact .inr ⟨a, ha, hl.job.trans hjob, hspared.step hw hs h.visits hev he hjob hx hl hc⟩
    · obtain ⟨a, v, -, hedit, hopen, -⟩ := hs.starts_pause hstart hj
      exact .inl ⟨_, List.mem_append_right _ (List.mem_singleton_self _), ⟨a.field.id, hopen, v, hedit⟩, hstart⟩

/-- While the timer was live the last request of its field was answered, as it had been made for a value equal to the one
that the field has again. -/
def World.AnsweredInPause (pre : List Transition) (field : String) (timer : Nat) : Prop :=
  ∃ x ∈ pre, ∃ c ending, x.before.session.slot? field = some c ∧ c.timer = some timer ∧
    x.Reenters field c.token c.value ending

/-- What a flush comes to. Listeners may edit fields meanwhile. -/
structure World.Flushed (pre : List Transition) (t : Transition) (mid : List Transition) (w : World) : Prop where
  /-- A field that paused is pending, and its value is being evaluated under its last token. -/
  asked : ∀ a ∈ t.before.session.slots, a.phase = .debouncing → (∀ x ∈ mid, ¬x.Edits a.field.id) →
    ∃ e ∈ w.errands, e.job = .evaluation a.field.id (a.token + 1) a.value ∧ e.cancelled = false ∧
      w.session.slot? a.field.id = some (({ a with timer := none } : Slot).requested e.id)
  /-- The other fields are as they were. -/
  unchanged : ∀ a ∈ t.before.session.slots, a.phase ≠ .debouncing → (∀ x ∈ mid, ¬x.Edits a.field.id) →
    w.session.slot? a.field.id = some a
  /-- A timer that is live was started by an edit meanwhile, or its field was answered in the pause. -/
  timers : ∀ e ∈ w.errands, ¬e.job.Light → e.cancelled = false →
    (∃ x ∈ mid, (∃ field, x.Edits field) ∧ .start e.id e.job ∈ x.effects) ∨
      ∃ a ∈ t.before.session.slots, e.job = .fieldTimer a.field.id ∧ a.phase ≠ .debouncing ∧
        World.AnsweredInPause pre a.field.id e.id

/-- A field that has a timer pauses, unless it was answered in the pause. -/
theorem History.pauses (h : History pre w) (hc : c ∈ w.session.slots) {k : Nat} (hk : c.timer = some k) :
    c.phase = .debouncing ∨ World.AnsweredInPause pre c.field.id k := by
  cases hmode : w.session.mode with
  | form => cases (h.untimed hmode c hc).symm.trans hk
  | field => exact h.timed hmode c hc k hk

theorem History.flushing (h : History (pre ++ t :: mid) w) (ht : t.event = .flush) (hmid : ∀ x ∈ mid, x.OfWalk) :
    w.Flushing t mid := by
  obtain ⟨hbefore, hs, hafter⟩ := h.prefix_step
  obtain ⟨before, event, fx, after⟩ := t
  obtain rfl : event = .flush := ht
  refine hafter.onward (by simp) (P := fun xs v => (∀ x ∈ xs, x.OfWalk) → v.Flushing ⟨before, .flush, fx, after⟩ xs)
    (fun _ => ?_) (fun xs v event fx v' hv hstep ih hxs => ?_) mid w (by simpa using h) hmid
  · exact .begun hbefore.sound hbefore.single hbefore.about hs
  · exact (ih fun x hx => hxs x (List.mem_append_left _ hx)).step hv.sound hstep
      (hxs _ (List.mem_append_right _ (List.mem_singleton_self _)))

theorem History.flushed (h : History (pre ++ t :: mid) w) (ht : t.event = .flush) (hmid : ∀ x ∈ mid, x.OfWalk)
    (hv : w.visits = []) : w.Flushed pre t mid := by
  have hflushing := h.flushing ht hmid
  obtain ⟨hbefore, -, -⟩ := h.prefix_step
  have passed {field : String} : .pausing field ∉ w.visits := by simp [hv]
  refine ⟨fun a ha hp hno => ?_, fun a ha hp hno => ?_, fun e he hj hc => ?_⟩
  · cases hflushing.swept a ha hno with
    | ahead _ hahead => exact absurd (hahead hp) passed
    | asked e _ he hslot hj hc => exact ⟨e, he, hj, hc, hslot⟩
  · cases hflushing.swept a ha hno with
    | ahead hslot => exact hslot
    | asked _ hdeb => exact absurd hdeb hp
  · refine (hflushing.timers e he hj hc).imp_right ?_
    rintro ⟨a, ha, hjob, hspared⟩
    have hp : a.phase ≠ .debouncing := fun hp => passed (hspared.ahead hp)
    exact ⟨a, ha, hjob, hp, (hbefore.pauses ha hspared.timer).resolve_left hp⟩

end

/-! ## A flush without edits -/

/-- The world after a walk during which no listener edits a field. -/
def World.walked (w : World) : World :=
  w.visits.foldl (fun w v => { w with visits := w.visits.tail }.absorb (v.step w.session)) w

/-- The world after a flush during which no listener edits a field. -/
def World.flushed (w : World) : World :=
  ({ w with visits := w.session.ids.map .pausing }.absorb w.session.beginFlush).walked

section

variable {ts : List Transition} {w : World}

theorem History.walked (h : History ts w) :
    ∃ mid, History (ts ++ mid) w.walked ∧ (∀ x ∈ mid, x.event = .visit) ∧ w.walked.visits = [] := by
  unfold World.walked
  generalize hv : w.visits = visits
  induction visits generalizing ts w with
  | nil => exact ⟨[], by simpa using h, by simp, hv⟩
  | cons v rest ih =>
      have hstep := h.step (.visit v rest hv)
      obtain ⟨mid, hmid, hvisits, hend⟩ := ih hstep rfl
      rw [List.foldl_cons, hv, List.tail_cons]
      exact ⟨_ :: mid, by simpa using hmid, by simpa using hvisits, hend⟩

/-- While no walk goes on, a flush can come to all fields. -/
theorem History.flush (h : History ts w) (hv : w.visits = []) : ∃ t mid, History (ts ++ t :: mid) w.flushed ∧
    t.event = .flush ∧ t.before = w ∧ (∀ x ∈ mid, x.event = .visit) ∧ w.flushed.visits = [] := by
  obtain ⟨mid, hmid, hvisits, hend⟩ := (h.step (.flush hv)).walked
  exact ⟨_, mid, by simpa [World.flushed] using hmid, rfl, rfl, hvisits, hend⟩

end

end Formwork
