import Formwork.Proofs.Flushes
import Formwork.Proofs.WaitIdle

/-!
A flush that is called in a session that is left alone. It comes to every field that pauses, and then it waits for one
round of evaluations.
-/

namespace Formwork

open World Session

namespace Session

variable {s : Session} {rest : List String} {id : String}

/-- Whatever timer is left is that of a field that pauses, and the flush is still to come to it. -/
def Unswept (s : Session) (rest : List String) : Prop :=
  s.formTimer = none ∧ ∀ f c, s.slot? f = some c → c.timer = none ∨ c.phase = .debouncing ∧ f ∈ rest

theorem Unswept.step (h : s.Unswept (id :: rest)) : (s.dispatchIfPausing id).1.Unswept rest := by
  have left {f : String} {c : Slot} (hc : s.slot? f = some c) (hf : f = id → c.phase ≠ .debouncing) :
      c.timer = none ∨ c.phase = .debouncing ∧ f ∈ rest :=
    (h.2 f c hc).imp_right fun hp => ⟨hp.1, (List.mem_cons.mp hp.2).resolve_left fun he => hf he hp.1⟩
  rcases s.dispatchIfPausing_cases id with ⟨he, hno⟩ | ⟨g, hg, hp, -⟩
  · rw [he]
    exact ⟨h.1, fun f c hc => left hc fun hf => hno c (hf ▸ hc)⟩
  · obtain rfl := slot?_id hg
    rw [dispatchIfPausing_pausing hg hp]
    refine ⟨h.1, fun f c hc => ?_⟩
    by_cases hf : g.field.id = f
    · subst hf
      have hself := slot?_putSlot_self (b := ({ g with timer := none } : Slot).requested s.nextTask) hg
      obtain rfl := Option.some.inj (hself.symm.trans hc)
      exact .inl rfl
    · have hother := slot?_putSlot_of_ne s (b := ({ g with timer := none } : Slot).requested s.nextTask) hf
      exact left (hother.symm.trans hc) fun he => absurd he.symm hf

end Session

namespace LiveSession

variable {l m : LiveSession} {ts : List World.Transition} {k : Nat} {turn : Option Nat}

/-- The session as a flush leaves it, before it waits. -/
def flushed (l : LiveSession) : LiveSession := (l.called .flush).flushNow

theorem begun_flush_ids (l : LiveSession) :
    ((l.called .flush).apply Session.beginFlush).session.ids = l.session.ids := by
  rw [beginFlush_session]
  rfl

theorem flushed_follows (hf : l.Follows ts none []) :
    l.flushed.Follows ts (some (l.session.nextTask, .wait .flush)) [] :=
  flushNow_follows (called_follows hf .flush)

/-! ## What the flush comes to -/

theorem Calm.swept (hc : l.Calm) {ids : List String} (h : l.session.Unswept ids) :
    (ids.foldl (fun l id => l.apply (Session.dispatchIfPausing id)) l).session.Unswept [] := by
  induction ids generalizing l with
  | nil => exact h
  | cons id ids ih =>
      have hone := hc.apply_carried (Session.dispatchIfPausing id)
      refine ih (fun x hx => hc x (hone.listeners ▸ hx)) ?_
      rw [hone.session]
      exact h.step

section

variable (hc : l.Calm) (hf : l.Follows ts none [])

include hc

theorem Calm.called (w : Wait) : (l.called w).Calm := hc

theorem Calm.begun_flush : ((l.called .flush).apply Session.beginFlush).Calm := fun x hx =>
  hc x (((hc.called .flush).apply_carried _).listeners ▸ hx)

theorem Calm.flushed_listeners : l.flushed.listeners = l.listeners := by
  have hwalk := visits_listeners hc.begun_flush (((l.called .flush).apply Session.beginFlush).session.ids.map .pausing)
  rw [List.foldl_map] at hwalk
  exact hwalk.trans ((hc.called .flush).apply_carried _).listeners

include hf

theorem Calm.flushed_continues : (l.called .flush).agenda.Continues turn l.flushed.agenda := by
  have hcalled := called_follows hf .flush
  have hbegin : (l.called .flush).agenda.Continues turn ((l.called .flush).apply Session.beginFlush).agenda :=
    (hc.called .flush).apply_continues hcalled (Session.beginFlush_modest _) (by simp [Session.beginFlush])
  have hids : _ = (l.called .flush).session.ids := l.begun_flush_ids
  have hwalk : ((l.called .flush).apply Session.beginFlush).agenda.Continues turn _ :=
    hc.begun_flush.visits_continue (beginFlush_follows hcalled)
  rw [List.foldl_map, ← hids] at hwalk
  exact hbegin.trans hwalk

/-- If every field that has a timer pauses, the flush leaves no timer. -/
theorem Calm.flushed_untimed (hpausing : ∀ c ∈ l.session.slots, c.timer.isSome → c.phase = .debouncing) :
    l.flushed.session.formTimer = none ∧ ∀ c ∈ l.flushed.session.slots, c.timer = none := by
  have hunswept : ((l.called .flush).apply Session.beginFlush).session.Unswept l.session.ids := by
    rw [beginFlush_session]
    refine ⟨rfl, fun f c hslot => ?_⟩
    have hslot : l.session.slot? f = some c := hslot
    obtain rfl := Session.slot?_id hslot
    have hmem := Session.slot?_mem hslot
    cases htimer : c.timer with
    | none => exact .inl rfl
    | some k => exact .inr ⟨hpausing c hmem (by simp [htimer]), List.mem_map_of_mem hmem⟩
  have hswept : l.flushed.session.Unswept [] := by
    have hwalk := hc.begun_flush.swept hunswept
    rw [← l.begun_flush_ids] at hwalk
    exact hwalk
  refine ⟨hswept.1, fun c hmem => ?_⟩
  have hslot := (finish_follows (flushed_follows hf)).slot?_of_mem hmem
  exact (hswept.2 c.field.id c hslot).resolve_right (by simp)

end

/-- Where the session knows no timer, evaluations are all that is outstanding. -/
theorem Follows.evaluations (hf : l.Follows ts none []) (hform : l.session.formTimer = none)
    (hslots : ∀ c ∈ l.session.slots, c.timer = none) :
    ∀ k ∈ l.outstanding, ∃ field token v, l.Stands k (.evaluation field token v) := by
  intro k hk
  obtain ⟨hk, hopen⟩ := mem_outstanding.mp hk
  rcases Session.mem_tasks.mp hk with hk | ⟨c, hc, hk | hk⟩
  · cases hform.symm.trans hk
  · cases (hslots c hc).symm.trans hk
  · exact ⟨c.field.id, hf.inflight_stands hc hk hopen⟩

theorem Follows.timers_nil (hf : l.Follows ts none []) (hform : l.session.formTimer = none)
    (hslots : ∀ c ∈ l.session.slots, c.timer = none) : l.timers = [] := by
  refine List.eq_nil_iff_forall_not_mem.mpr fun k hk => ?_
  obtain ⟨field, token, v, hstands⟩ := hf.evaluations hform hslots k (hf.known.timers k hk)
  obtain ⟨t, ht, rfl⟩ := List.mem_map.mp hk
  obtain ⟨ht, hticks⟩ := List.mem_filter.mp ht
  obtain ⟨-, hd, j, hj, hlight⟩ := Task.ticks_iff.mp hticks
  obtain rfl := hf.stands_one ⟨t, ht, rfl, hd, hj⟩ hstands
  exact hlight trivial

/-! ## The call of a flush -/

/-- A flush leaves no timer, and waits for the evaluations that run then. As soon as they have ended it returns, and
until then nothing is started. -/
structure FlushReturns (l : LiveSession) : Prop where
  timers : l.flushed.timers = []
  evaluations : ∀ k ∈ l.flushed.outstanding, ∃ field token v, l.flushed.Stands k (.evaluation field token v)
  returns : (l.enter .flush).Inevitable (·.Returned l.session.nextTask .flush)
  quiet : ∀ ps m, (l.enter .flush).Trail ps m → ps.flatMap Passage.fired = [] ∧ ∀ p ∈ ps, p.requests = []
  prompt : ∀ ps m, (l.enter .flush).Trail ps m → m.turn? = none →
    (∀ k ∈ l.flushed.outstanding, m.agenda.isDone k) → m.Returned l.session.nextTask .flush

theorem enter_flush_undisturbed (hu : l.Undisturbed) : (l.enter .flush).Undisturbed := by
  have hc := hu.calm
  refine awaitRest_undisturbed (hu.lived.moves (.enter .flush)) (fun x hx => hc x (hc.flushed_listeners ▸ hx))
    fun t ht hi hfresh => ?_
  have hcontinues : (l.called .flush).agenda.Continues none l.flushed.agenda :=
    hc.flushed_continues hu.lived.attentive.follows
  rcases hcontinues.task ht with ⟨u, hmem, hlater, -⟩ | ⟨field, token, v, hw⟩
  · rcases List.mem_append.mp hmem with hmem | hmem
    · exact hlater.work ▸ hu.waits u hmem (hlater.fresh hfresh)
    · exact absurd (hlater.id.trans (congrArg Task.id (List.mem_singleton.mp hmem))) hi
  · simp [hw]

theorem enter_flush_settles (hu : l.Undisturbed) (htimers : l.flushed.timers = []) :
    (l.enter .flush).Settles l.session.nextTask .flush 1 l.flushed.outstanding := by
  have hf := hu.lived.attentive.follows
  have hflushed := flushed_follows hf
  have hcontinues : (l.called .flush).agenda.Continues none l.flushed.agenda := hu.calm.flushed_continues hf
  have ht := hcontinues.wait (List.mem_append_right _ (List.mem_singleton_self _)) rfl (by simp) (by simp)
  have hnone : l.flushed.agenda.rounds l.session.nextTask = [] :=
    ((l.called .flush).flushNow_adjusts.rounds _).trans (hu.lived.rounds _ (Nat.le_refl _))
  exact (hflushed.known_caller.begins hflushed.orderly.distinct ht (by simp)).settles htimers (by simp [hnone])

/-- As soon as the tasks that it waits for have ended the call returns. -/
theorem Settles.prompt {task bound : Nat} {w : Wait} {children : List Nat} (hu : m.Undisturbed)
    (h : m.Settles task w bound children) (hturn : m.turn? = none) (hdone : ∀ k ∈ children, m.agenda.isDone k) :
    m.Returned task w := by
  have hturns := turn?_eq_none.mp hturn
  cases h with
  | gathering g ht hg =>
      obtain ⟨k, hk, hopen⟩ := hg.unfinished hu ht hturns
      cases hopen.symm.trans (hdone k hk)
  | awake ht => exact absurd hturns (hu.awake_due ht)
  | returned ht => exact ht

theorem Undisturbed.flushReturns (hu : l.Undisturbed)
    (hpausing : ∀ c ∈ l.session.slots, c.timer.isSome → c.phase = .debouncing) : l.FlushReturns := by
  have hf := hu.lived.attentive.follows
  obtain ⟨hform, hslots⟩ := hu.calm.flushed_untimed hf hpausing
  have hcaller := flushed_follows hf
  have hended := finish_follows hcaller
  have htimers : l.flushed.timers = [] := by
    have hnone := hended.timers_nil hform hslots
    exact List.eq_nil_iff_forall_not_mem.mpr fun k hk => by simpa [hnone] using hcaller.timers_caller k hk
  have hentered := enter_flush_undisturbed hu
  have hsettles := enter_flush_settles hu htimers
  have along {ps : List Passage} {m : LiveSession} (h : (l.enter .flush).Trail ps m) :
      m.Undisturbed ∧ m.Settles l.session.nextTask .flush 1 l.flushed.outstanding :=
    h.preserved (P := fun m => m.Undisturbed ∧ m.Settles l.session.nextTask .flush 1 l.flushed.outstanding)
      (fun hm hn => ⟨hm.1.onward hn, hm.2.onward (.inr rfl) hm.1 hn⟩) ⟨hentered, hsettles⟩
  refine ⟨htimers, fun k hk => ?_, (Rests.settles _ hsettles).inevitable (.inr rfl) hentered, fun ps m htrail => ?_,
    fun ps m htrail hturn hdone => (along htrail).2.prompt (along htrail).1 hturn hdone⟩
  · obtain ⟨field, token, v, hstands⟩ := hended.evaluations hform hslots k (hcaller.outstanding_caller.symm ▸ hk)
    exact ⟨field, token, v, stands_caller hstands⟩
  · obtain ⟨-, -, hfired, -, hrequests⟩ := hentered.trail htrail
    obtain ⟨-, hsession⟩ := l.flushed.awaitRest_same l.session.nextTask
    have hstill : (l.enter .flush).timers = [] :=
      hentered.lived.attentive.follows.timers_nil (hsession ▸ hform) (hsession ▸ hslots)
    have hnone : ps.flatMap Passage.fired = [] :=
      List.eq_nil_iff_forall_not_mem.mpr fun k hk => by simpa [hstill] using (hfired k hk).1
    refine ⟨hnone, fun p hp => ?_⟩
    rw [hrequests p hp, List.flatMap_eq_nil_iff.mp hnone p hp]
    rfl

end LiveSession

/-- A flush ends every pause but that of a field that was answered in it, as a value equal to the one under evaluation was
entered again. However listeners edit fields meanwhile, each field that paused is then evaluated, and the others are as
they were. Where no field with a timer was answered in its pause, a flush that is left alone waits for no pause: it
returns as soon as the evaluations have ended that run then. -/
theorem flush_skips_pauses {pre mid : List Transition} {t : Transition} {w : World} (h : History (pre ++ t :: mid) w)
    (ht : t.event = .flush) (hmid : ∀ x ∈ mid, x.OfWalk) (hv : w.visits = []) :
    w.Flushed pre t mid ∧ ∀ l : LiveSession, l.session = t.before.session → l.Lived → l.Calm →
      (∀ u ∈ l.agenda.tasks, u.stage = .fresh → u.work ≠ .wait .flush ∧ u.work ≠ .wait .close) →
        (∀ c ∈ l.session.slots, ∀ k, c.timer = some k → ¬World.AnsweredInPause pre c.field.id k) → l.FlushReturns := by
  refine ⟨h.flushed ht hmid hv, fun l hsession hl hc hwaits hno => ?_⟩
  obtain ⟨hbefore, -, -⟩ := h.prefix_step
  refine LiveSession.Undisturbed.flushReturns ⟨hl, hc, hwaits⟩ fun c hslot hsome => ?_
  obtain ⟨k, hk⟩ := Option.isSome_iff_exists.mp hsome
  exact (hbefore.pauses (hsession ▸ hslot) hk).resolve_right (hno c hslot k hk)

/-- The name is requested at once, and the flush waits for the evaluation alone. -/
theorem flush_skips_pause_of_name : ∃ (pre mid : List Transition) (t : Transition) (w : World), t.event = .flush ∧
    w.Flushed pre t mid ∧ Sample.entered.session = t.before.session ∧ Sample.entered.FlushReturns ∧
      w.errands.map (fun e => (e.id, e.job.field?, e.cancelled)) = [(0, some "name", true), (1, some "name", false)] := by
  have hedited := (History.opened (Sample.naming_opened false)).step (.edit "name" (.text "Bo"))
  obtain ⟨t, mid, h, ht, hbefore, hvisits, hend⟩ := hedited.flush rfl
  have hcalm : (Sample.naming false).Calm := Sample.entered_calm
  have hsession : Sample.entered.session = t.before.session := hbefore ▸ (hcalm.edit_carried "name" (.text "Bo")).session
  obtain ⟨hflushed, hreturns⟩ := flush_skips_pauses h ht (fun x hx => .inl (hvisits x hx)) hend
  refine ⟨_, mid, t, _, ht, hflushed, hsession, ?_, by decide +kernel⟩
  refine hreturns _ hsession Sample.entered_lived Sample.entered_calm Sample.entered_waits fun c _ k _ => ?_
  rintro ⟨x, hx, d, ending, -, -, -, task, requested, a, ⟨hevent, -⟩, -⟩
  rw [List.mem_singleton.mp hx] at hevent
  cases hevent

/-- A flush passes over a name that was resolved in its pause, and leaves its timer. -/
theorem reentered_name_flushed : ∃ pre t mid w, History (pre ++ t :: mid) w ∧ t.event = .flush ∧
    (∀ x ∈ mid, x.event = .visit) ∧ w.visits = [] ∧ w.session.closed = false ∧
      w.errands.map (fun e => (e.id, e.job.field?, e.cancelled)) = [(2, some "name", false)] ∧
        (w.session.slot? "name").map (fun c => (c.timer, c.phase)) = some (some 2, .resolved) := by
  have hagain : History Sample.againRun.1 Sample.againRun.2 := Sample.profile_opened.history Sample.againEvents_possible
  obtain ⟨t, mid, h, ht, -, hvisits, hend⟩ := hagain.flush (by decide +kernel)
  exact ⟨_, t, mid, _, h, ht, hvisits, hend, by decide +kernel, by decide +kernel, by decide +kernel⟩

end Formwork
