import Formwork.Proofs.Effects
import Formwork.Proofs.FormTimer
import Formwork.Proofs.StaleResults

/-!
Which of the running evaluations a session knows: that of the last request of each field. The ones before it go on
unknown, cancelled or not.
-/

namespace Formwork

open Session

theorem Errand.Later.trans {e x y : Errand} (h : e.Later x) (h' : x.Later y) : e.Later y :=
  ⟨h'.id.trans h.id, h'.job.trans h.job, fun hc => h.cancelled (h'.cancelled hc)⟩

theorem Errand.Later.still_cancelled {e x : Errand} (h : e.Later x) (hc : e.cancelled) : x.cancelled := by
  by_contra hn
  rw [h.cancelled (Bool.eq_false_iff.mpr hn)] at hc
  cases hc

namespace World

variable {w w' : World} {event : Event} {fx : List Effect} {a b : Slot} {field : String}

/-! ## What an event cancels and starts -/

theorem absorb_errand (s : Stepped) {x : Errand} (hx : x ∈ (w.absorb s).errands) :
    (∃ e ∈ w.errands, e.Later x ∧ (s.2.any (·.cancels e.id) → x.cancelled)) ∨ .start x.id x.job ∈ s.2 := by
  rcases mem_absorb.mp hx with ⟨e, he, rfl⟩ | ⟨task, job, hs, rfl⟩
  · exact .inl ⟨e, he, cancel_later s.2 e, fun hc => by rw [cancel_cancelled, hc, Bool.or_true]⟩
  · exact .inr hs

/-- A task that runs after an event ran before, and is cancelled if the event cancels it; or the event starts it. -/
theorem Step.errand_cancelled (hs : w.Step event fx w') {x : Errand} (hx : x ∈ w'.errands) :
    (∃ e ∈ w.errands, e.Later x ∧ (fx.any (·.cancels e.id) → x.cancelled)) ∨ .start x.id x.job ∈ fx := by
  have left {task : Nat} {fx : List Effect}
      (h : (∃ e ∈ (w.without task).errands, e.Later x ∧ (fx.any (·.cancels e.id) → x.cancelled)) ∨
        .start x.id x.job ∈ fx) :
      (∃ e ∈ w.errands, e.Later x ∧ (fx.any (·.cancels e.id) → x.cancelled)) ∨ .start x.id x.job ∈ fx :=
    h.imp_left fun ⟨e, he, hl⟩ => ⟨e, (mem_without.mp he).1, hl⟩
  cases hs with
  | edit | flush | close | visit => exact absorb_errand _ hx
  | validateAll | validateNone | otherTask => exact .inl ⟨x, hx, .refl x, by simp⟩
  | «begin» e =>
      obtain ⟨d, hd, rfl⟩ := List.mem_map.mp hx
      refine .inl ⟨d, hd, ?_, by simp⟩
      split
      · exact ⟨rfl, rfl, fun h => h⟩
      · exact .refl d
  | fieldPauseOver | answer => exact left (absorb_errand _ hx)
  | formPauseOver | vanish => exact .inl ⟨x, (mem_without.mp hx).1, .refl x, by simp⟩

/-- Pauses are started by edits of an open session. -/
theorem Step.starts_pause (hs : w.Step event fx w') {task : Nat} {j : Job} (hm : .start task j ∈ fx) (hj : ¬j.Light) :
    ∃ a v, w.session.slot? a.field.id = some a ∧ event = .edit a.field.id v ∧ w.session.closed = false ∧
      ∀ f, j.field? = some f → f = a.field.id := by
  cases hs with
  | edit id v =>
      rcases w.session.edit_cases id v with ⟨he, -⟩ | ⟨a, ha, hcl, he⟩
      · rw [he] at hm
        cases hm
      · obtain rfl := slot?_id ha
        refine ⟨a, v, ha, rfl, hcl, fun f hf => ?_⟩
        generalize (w.session.edit a.field.id v).1 = s at he hm
        cases he with
        | broken | cleared | unadvised => simp at hm
        | pausedAlone =>
            obtain ⟨-, rfl⟩ : task = _ ∧ j = _ := by simpa using hm
            exact (Option.some.inj hf).symm
        | pausedTogether =>
            obtain ⟨-, rfl⟩ : task = _ ∧ j = _ := by simpa using hm
            cases hf
  | flush => simp [Session.beginFlush] at hm
  | close => simp [Session.close] at hm
  | validateAll | validateNone | «begin» | formPauseOver | vanish | otherTask => cases hm
  | visit v => exact absurd (v.light hm) hj
  | fieldPauseOver => exact absurd (fieldTimerFires_light hm) hj
  | answer e id token requested ending =>
      obtain ⟨shows, hshows⟩ := w.session.settle_shows e.id id token requested ending
      simp [hshows] at hm

/-! ## The evaluations of a field -/

/-- What a session knows of the evaluations that run. -/
structure Tracked (w : World) : Prop where
  /-- The evaluation of the last request of a field is the one that the field waits for. -/
  inflight : ∀ c ∈ w.session.slots, ∀ e ∈ w.errands, ∀ v,
    e.job = .evaluation c.field.id c.token v → c.inflight = some e.id
  /-- Earlier ones are cancelled, if the session cancels them. -/
  cancelled : w.session.cancelStale → ∀ c ∈ w.session.slots, ∀ e ∈ w.errands, ∀ k v,
    e.job = .evaluation c.field.id k v → k < c.token → e.cancelled

/-- How an event leaves the last request of a field: it is still the last one, or there is a new one, or none. -/
inductive Succession (w : World) (a : Slot) (event : Event) (fx : List Effect) (b : Slot) : Prop
  | same (token : b.token = a.token) (inflight : b.inflight = a.inflight)
      (quiet : ∀ task k v, Effect.start task (.evaluation a.field.id k v) ∉ fx)
  | answered (e : Errand) (k : Nat) (v : Value) (ending : Ending) (he : e ∈ w.errands)
      (hj : e.job = .evaluation a.field.id k v) (hev : event = .answer e.id ending)
      (token : b.token = a.token) (inflight : b.inflight = (forget a e.id).inflight)
      (quiet : ∀ task k v, Effect.start task (.evaluation a.field.id k v) ∉ fx)
  | next (token : b.token = a.token + 1)
      (started : ∀ task k v, Effect.start task (.evaluation a.field.id k v) ∈ fx → b.inflight = some task)
      (cancels : w.session.cancelStale → ∀ k, a.inflight = some k → fx.any (·.cancels k))

theorem Alters.succession (h : w.Alters a event fx b) : w.Succession a event fx b := by
  have asked {t : Option Nat} (fx : List Effect)
      (hquiet : ∀ task j, Effect.start task j ∉ fx) :
      w.Succession a event (fx ++ asking w.session a (({ a with timer := t } : Slot).requested w.session.nextTask))
        (({ a with timer := t } : Slot).requested w.session.nextTask) := by
    refine .next rfl (fun task k v hm => ?_) fun hstale k hk => ?_
    · obtain ⟨rfl, -⟩ := Alters.start_mem_asking ((List.mem_append.mp hm).resolve_left (hquiet _ _))
      rfl
    · simp [asking, hstale, hk]
  cases h with
  | same quiet => exact .same rfl rfl quiet
  | broken | unadvised | pausedAlone | pausedTogether | recorded => exact .same rfl rfl (by simp)
  | cleared => exact .next rfl (by simp) fun _ k hk => by simp [hk]
  | timerFired => exact asked [] (by simp)
  | flushed => exact asked (cancelOf a.timer) (by simp)
  | gathered => exact asked (t := a.timer) [] (by simp)
  | dropped e token requested ending he hj =>
      exact .answered e token requested ending he hj rfl (forget_same a e.id).2.2.1 rfl (by simp)
  | committed e requested found he hj =>
      exact .answered e a.token requested (.findings found) he hj rfl (forget_same a e.id).2.2.1 rfl (by simp)
  | fellBack e requested he hj =>
      exact .answered e a.token requested .failed he hj rfl (forget_same a e.id).2.2.1 rfl (by simp)

theorem Tracked.step (h : w.Tracked) (hw : w.Sound) (hs : w.Step event fx w') : w'.Tracked where
  inflight b hb x hx v hj := by
    obtain ⟨a, ha, hid, halt⟩ := hs.alters_of_after ((hs.sound hw).slot?_of_mem hb)
    have hm := slot?_mem ha
    rw [← hid] at hj
    -- an evaluation that is not new ran before, under the token that the field still has
    have old (quiet : ∀ task k v, Effect.start task (.evaluation a.field.id k v) ∉ fx) :
        ∃ e ∈ w.errands, x.id = e.id ∧ e.job = .evaluation a.field.id b.token v := by
      rcases hs.errand hx with ⟨e, he, hl⟩ | hstart
      · exact ⟨e, he, hl.id, hl.job ▸ hj⟩
      · exact absurd (hj ▸ hstart) (quiet _ _ _)
    cases halt.succession with
    | same token inflight quiet =>
        obtain ⟨e, he, hxe, hk⟩ := old quiet
        rw [inflight, h.inflight a hm e he v (token ▸ hk), hxe]
    | answered d k u ending hd hdj hev token inflight quiet =>
        obtain ⟨e, he, hxe, hk⟩ := old quiet
        have hinflight := h.inflight a hm e he v (token ▸ hk)
        rw [inflight, forget, if_neg, hinflight, hxe]
        intro hd'
        -- had this evaluation answered, none would run under its token
        obtain rfl := hw.eq_of_id he hd (Option.some.inj (hinflight.symm.trans hd'))
        have hend : Transition.Ends ⟨w, event, fx, w'⟩ a.field.id e.id b.token v ending := ⟨hev, e, he, rfl, hk⟩
        exact hend.gone hs hw x hx v hj
    | next token started =>
        rcases hs.errand hx with ⟨e, he, hl⟩ | hstart
        · have := (hw.slot a hm).token_le e he b.token v (hl.job ▸ hj)
          omega
        · exact started x.id b.token v (hj ▸ hstart)
  cancelled hstale b hb x hx k v hj hlt := by
    obtain ⟨a, ha, hid, halt⟩ := hs.alters_of_after ((hs.sound hw).slot?_of_mem hb)
    have hm := slot?_mem ha
    have hstale : w.session.cancelStale := hs.alike.cancelStale ▸ hstale
    rcases hs.errand_cancelled hx with ⟨e, he, hl, hcancel⟩ | hstart
    · have hk : e.job = .evaluation a.field.id k v := by rw [hid, ← hl.job, hj]
      have earlier (hlt : k < a.token) : x.cancelled :=
        hl.still_cancelled (h.cancelled hstale a hm e he k v hk hlt)
      cases halt.succession with
      | same token => exact earlier (token ▸ hlt)
      | answered _ _ _ _ _ _ _ token => exact earlier (token ▸ hlt)
      | next token _ cancels =>
          rcases Nat.lt_or_eq_of_le (Nat.lt_succ_iff.mp (token ▸ hlt)) with hlt | rfl
          · exact earlier hlt
          · exact hcancel (cancels hstale _ (h.inflight a hm e he v hk))
    · obtain ⟨a, -, hid, hch⟩ := hs.change_of_after hw ((hs.sound hw).slot?_of_mem hb)
      rw [← hid] at hj
      exact absurd (hch.token_of_start (hj ▸ hstart)).2 (Nat.ne_of_lt hlt)

end World

theorem History.tracked {ts : List World.Transition} {w : World} (h : History ts w) : w.Tracked := by
  induction h with
  | opened => exact ⟨fun _ _ _ he => (nomatch he), fun _ _ _ _ he => (nomatch he)⟩
  | step hh hs ih => exact ih.step hh.sound hs

/-- Every task is about a field of the form. -/
theorem History.about {ts : List World.Transition} {w : World} (h : History ts w) :
    ∀ e ∈ w.errands, ∀ f, e.job.field? = some f → f ∈ w.session.ids := by
  induction h with
  | opened => exact fun _ he => (nomatch he)
  | step hh hs ih =>
      intro x hx f hf
      rw [hs.alike.ids]
      rcases hs.errand hx with ⟨e, he, hl⟩ | hstart
      · exact ih e he f (hl.job ▸ hf)
      · cases hj : x.job with
        | evaluation f' k v =>
            rw [hj] at hf hstart
            cases hf
            exact slot?_isSome_iff.mp (hs.slot_of_start hstart)
        | fieldTimer f' | formTimer =>
            obtain ⟨a, v, ha, -, -, hfield⟩ := hs.starts_pause hstart (by simp [hj, Job.Light])
            exact hfield f hf ▸ slot?_isSome_iff.mp ⟨a, ha⟩

/-- A task that a session has lost sight of: a pause that is cancelled, or an evaluation that a later request
superseded, cancelled if the session cancels those. -/
structure Errand.Dropped (s : Session) (e : Errand) : Prop where
  pause : ¬e.job.Light → e.cancelled
  superseded : ∀ field token v, e.job = .evaluation field token v →
    ∃ c, s.slot? field = some c ∧ token < c.token ∧ (s.cancelStale → e.cancelled)

theorem Errand.Dropped.later {s : Session} {e x : Errand} (h : e.Dropped s) (hl : e.Later x) : x.Dropped s := by
  refine ⟨fun hj => hl.still_cancelled (h.pause (hl.job ▸ hj)), fun field token v hj => ?_⟩
  obtain ⟨c, hc, hlt, hstale⟩ := h.superseded field token v (hl.job ▸ hj)
  exact ⟨c, hc, hlt, fun hs => hl.still_cancelled (hstale hs)⟩

/-- A session knows all of its other tasks. -/
theorem History.dropped {ts : List World.Transition} {w : World} (h : History ts w) {e : Errand} (he : e ∈ w.errands)
    (hk : e.id ∉ w.session.tasks) : e.Dropped w.session where
  pause hj := by
    by_contra hn
    have hopen : e.cancelled = false := Bool.eq_false_iff.mpr hn
    refine hk (mem_tasks.mpr ?_)
    cases hjob : e.job with
    | evaluation => simp [hjob, Job.Light] at hj
    | formTimer => exact .inl (h.single e he hjob hopen)
    | fieldTimer f =>
        obtain ⟨c, hc⟩ := slot?_isSome_iff.mpr (h.about e he f (by rw [hjob]; rfl))
        obtain rfl := slot?_id hc
        exact .inr ⟨c, slot?_mem hc, .inl ((h.sound.slot c (slot?_mem hc)).ticking e he hjob hopen)⟩
  superseded field token v hj := by
    obtain ⟨c, hc⟩ := slot?_isSome_iff.mpr (h.about e he field (by rw [hj]; rfl))
    obtain rfl := slot?_id hc
    have hm := slot?_mem hc
    have hlt : token < c.token := by
      refine Nat.lt_of_le_of_ne ((h.sound.slot c hm).token_le e he token v hj) ?_
      rintro rfl
      exact hk (mem_tasks.mpr (.inr ⟨c, hm, .inr (h.tracked.inflight c hm e he v hj)⟩))
    exact ⟨c, hc, hlt, fun hstale => h.tracked.cancelled hstale c hm e he token v hj hlt⟩

end Formwork
