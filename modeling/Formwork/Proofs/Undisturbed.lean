import Formwork.Proofs.Continuations
import Formwork.Proofs.FormPauses
import Formwork.Proofs.Tracking

/-!
A session that is left alone: nobody edits, flushes or closes it, and its listeners only listen. The timers that are live
go off, each of them once, and start evaluations; nothing else is started.
-/

namespace Formwork

namespace Task

variable {t x : Task}

/-- A timer that is live. -/
def ticks (t : Task) : Bool :=
  !t.cancelled && t.stage ≠ .done && match t.work with
    | .job (.fieldTimer _) | .job .formTimer => true
    | _ => false

theorem ticks_iff : t.ticks ↔ t.cancelled = false ∧ t.stage ≠ .done ∧ ∃ j, t.work = .job j ∧ ¬j.Light := by
  have hwork : (match t.work with
      | .job (.fieldTimer _) | .job .formTimer => true
      | _ => false) = true ↔ ∃ j, t.work = .job j ∧ ¬j.Light := by
    cases t.work with
    | wait w => simp
    | job j => cases j <;> simp [Job.Light]
  rw [ticks, Bool.and_eq_true, Bool.and_eq_true, hwork]
  simp [and_assoc]

theorem Later.ticks (h : t.Later x) (hx : x.ticks) : t.ticks := by
  obtain ⟨hc, hd, hj⟩ := ticks_iff.mp hx
  exact ticks_iff.mpr ⟨h.cancelled hc, fun hdone => hd (h.done hdone), h.work ▸ hj⟩

end Task

namespace Agenda

variable {a b : Agenda} {turn : Option Nat} {t : Task}

/-- Whose turn is next. A report may wake the task that waits for it. -/
def next? (a : Agenda) : Option Nat :=
  a.turns.head?.bind fun turn => match turn with
    | .task id => some id
    | .report g => (a.gathering? g).map (·.waiter)

theorem Continues.going (h : a.Continues turn b) (hb : (b.tasks.map (·.id)).Nodup) (ht : t ∈ a.tasks)
    (hn : turn ≠ some t.id) (hs : t.stage ≠ .done) : b.isDone t.id = false := by
  obtain ⟨x, hx, hlater, haside⟩ := h.later ht
  rw [isDone_of_stage (hlater.id ▸ stage?_of_mem hb hx)]
  exact decide_eq_false fun hd => hs ((haside hn).ended hd)

theorem isDone_finish_self (a : Agenda) (id : Nat) : (a.finish id).isDone id := by
  refine isDone_iff.mpr fun s hs => ?_
  rw [stage?_finish, if_pos rfl] at hs
  obtain ⟨-, -, rfl⟩ := Option.map_eq_some_iff.mp hs
  rfl

end Agenda

/-- What is requested when a timer goes off: the value of its field, or those of all fields that have one. -/
def Session.sought (s : Session) : Job → List (String × Value)
  | .fieldTimer id => (s.valued? id).toList
  | .formTimer => s.ids.filterMap s.valued?
  | .evaluation .. => []

namespace LiveSession

variable {l m n : LiveSession} {t : Task} {j : Job} {w : Wait} {ts : List World.Transition} {turn : Option Nat}
  {running : Option (Nat × Work)} {visits : List Visit}

/-! ## What happens by itself -/

/-- The timers that are live. -/
def timers (l : LiveSession) : List Nat := (l.agenda.tasks.filter Task.ticks).map (·.id)

/-- What is requested when a timer of the session goes off. -/
def sought (l : LiveSession) (timer : Nat) : List (String × Value) :=
  match (l.agenda.task? timer).map Task.work with
  | some (.job j) => l.session.sought j
  | _ => []

theorem sought_of_mem (hd : (l.agenda.tasks.map (·.id)).Nodup) (ht : t ∈ l.agenda.tasks) (hj : t.work = .job j) :
    l.sought t.id = l.session.sought j := by
  rw [sought, Agenda.task?_of_mem hd ht, Option.map_some, hj]

/-- Something that happens by itself: the session before and after it. -/
structure Passage where
  before : LiveSession
  after : LiveSession

namespace Passage

/-- The live timers that go off. -/
def fired (p : Passage) : List Nat := p.before.timers.filter p.after.agenda.isDone

/-- The values whose evaluations are started. -/
def requests (p : Passage) : List (String × Value) := p.after.agenda.requests.drop p.before.agenda.requests.length

end Passage

/-- What happens by itself to a session, one thing after the other. -/
inductive Trail (l : LiveSession) : List Passage → LiveSession → Prop
  | start : Trail l [] l
  | onward {ps : List Passage} {m n : LiveSession} (h : Trail l ps m) (hn : m.Onward n) : Trail l (ps ++ [⟨m, n⟩]) n

/-- The listeners only listen, and no flush or close is about to begin. -/
structure Undisturbed (l : LiveSession) : Prop where
  lived : l.Lived
  calm : l.Calm
  waits : ∀ t ∈ l.agenda.tasks, t.stage = .fresh → t.work ≠ .wait .flush ∧ t.work ≠ .wait .close

/-- Nothing is started, and the session knows no more tasks than before; or a timer goes off. -/
inductive Passing (m n : LiveSession) : Prop
  | quiet (htasks : ∀ k ∈ n.session.tasks, k ∈ m.session.tasks) (hr : n.agenda.roster = m.agenda.roster)
      (hended : ∀ t ∈ m.agenda.tasks, t.ticks → n.agenda.isDone t.id = false)
  | fires (t : Task) (ht : t ∈ m.agenda.tasks) (hticks : t.ticks)
      (hr : n.agenda.requests = m.agenda.requests ++ m.sought t.id) (hdone : n.agenda.isDone t.id)
      (hended : ∀ u ∈ m.agenda.tasks, u.ticks → u.id ≠ t.id → n.agenda.isDone u.id = false)

/-! ## Steps of the session -/

theorem Calm.apply_continues (hc : l.Calm) (hf : l.Follows ts running visits) {step : Session → Stepped}
    (hmodest : l.session.Modest (step l.session)) (hlight : ∀ {task j}, .start task j ∈ (step l.session).2 → j.Light) :
    l.agenda.Continues turn (l.apply step).agenda := by
  rw [hc.apply_eq]
  exact .heeds hf.orderly hmodest (fun k hk => hf.tracked hk) hlight

theorem Calm.visits_continue (hc : l.Calm) {visits : List Visit} (hf : l.Follows ts running visits) :
    l.agenda.Continues turn (visits.foldl (fun l v => l.apply v.step) l).agenda := by
  induction visits generalizing l with
  | nil => exact .refl turn l.agenda
  | cons v visits ih =>
      have hone : l.agenda.Continues turn (l.apply v.step).agenda :=
        hc.apply_continues hf (v.step_modest l.session) v.light
      refine hone.trans (ih (fun x hx => hc x ?_) (visit_follows hf))
      rwa [hc.apply_eq] at hx

theorem visits_listeners (hc : l.Calm) (visits : List Visit) :
    (visits.foldl (fun l v => l.apply v.step) l).listeners = l.listeners := by
  induction visits generalizing l with
  | nil => rfl
  | cons v visits ih =>
      have hone : (l.apply v.step).listeners = l.listeners := by rw [hc.apply_eq]
      exact (ih fun x hx => hc x (hone ▸ hx)).trans hone

theorem tasks_of_modest {s : Session} {r : Stepped} (h : s.Modest r) (hr : Effect.starts r.2 = []) :
    ∀ k ∈ r.1.tasks, k ∈ s.tasks := by
  obtain ⟨cancels, job?, shows, ha⟩ := h
  cases job? with
  | none => exact fun k hk => (ha.tracked k hk).resolve_right (by simp)
  | some job => simp [ha.effects] at hr

/-- When it is the turn of a job and no timer goes off, nothing is started. A timer that is live begins its pause. -/
theorem turnOf_quiet (l : LiveSession) (hj : t.work = .job j) (hs : t.stage = .fresh ∨ t.stage = .awake)
    (hoff : ¬(t.ticks ∧ t.stage = .awake)) : Effect.starts (l.turnOf t j).1.2 = [] ∧
      ((l.turnOf t j).2.isSome → (l.turnOf t j).1.2 = []) ∧ (t.ticks → (l.turnOf t j).2.isSome) := by
  have hfresh : t.ticks → t.stage = .fresh := fun h => hs.resolve_right fun hawake => hoff ⟨h, hawake⟩
  cases j with
  | formTimer =>
      refine ⟨rfl, fun _ => rfl, fun h => ?_⟩
      simp [turnOf, (Task.ticks_iff.mp h).1]
  | fieldTimer id =>
      cases hc : t.cancelled with
      | true =>
          refine ⟨by simp [turnOf, hc], by simp [turnOf, hc], fun h => ?_⟩
          simp [(Task.ticks_iff.mp h).1] at hc
      | false =>
          have hticks : t.ticks := Task.ticks_iff.mpr ⟨hc, by rcases hs with hs | hs <;> simp [hs], _, hj, by simp [Job.Light]⟩
          simp [turnOf, hc, hfresh hticks]
  | evaluation id token requested =>
      have hsettle : ∀ ending, Effect.starts (l.session.settle t.id id token requested ending).2 = [] := by
        intro ending
        obtain ⟨shows, hshows⟩ := l.session.settle_shows t.id id token requested ending
        rw [hshows, Effect.starts_shows]
      have hnot : ¬t.ticks := fun h => by
        obtain ⟨-, -, i, hi, hlight⟩ := Task.ticks_iff.mp h
        obtain rfl := Work.job.inj (hj.symm.trans hi)
        exact hlight trivial
      simp only [turnOf]
      split_ifs <;> simp [hsettle, hnot]

/-! ## Turns -/

/-- The turn of a call that waits: the session stays as it is. -/
structure Bides (l : LiveSession) (id : Nat) (m : LiveSession) : Prop where
  session : m.session = l.session
  listeners : ∀ x ∈ m.listeners, x ∈ l.listeners
  continues : l.agenda.Continues (some id) m.agenda
  roster : m.agenda.roster = l.agenda.roster

theorem finish_bides (l : LiveSession) (id : Nat) : l.Bides id (l.finish id) :=
  ⟨rfl, fun _ hx => hx, .finish l.agenda id, Agenda.roster_finish ..⟩

section

variable (hs : ∀ u ∈ l.agenda.tasks, u.id = t.id → u.stage ≠ .done)

include hs

theorem awaitRest_bides : l.Bides t.id (l.awaitRest t.id) := by
  simp only [awaitRest]
  split
  · exact l.finish_bides t.id
  · exact ⟨rfl, fun _ hx => hx, .gather hs _, Agenda.roster_gather ..⟩

theorem takeTurn_bides (hw : t.work = .wait w) (hfresh : t.stage = .fresh → w ≠ .flush ∧ w ≠ .close) :
    l.Bides t.id (l.takeTurn t) := by
  have sleeps (pause : Pause) : l.Bides t.id (l.onAgenda fun a => a.sleep t.id pause) :=
    ⟨rfl, fun _ hx => hx, .sleep hs pause, Agenda.roster_sleep ..⟩
  unfold takeTurn
  rw [hw]
  split
  · next h _ => cases h
  · next h _ _ => cases h
  · next h _ _ => cases h
  · exact l.finish_bides t.id
  · next h _ hstage =>
      cases h
      cases w with
      | idle => exact awaitRest_bides hs
      | flush => exact absurd rfl (hfresh hstage).1
      | close => exact absurd rfl (hfresh hstage).2
      | sleep micros => exact sleeps (.time micros)
  · next h _ _ =>
      cases h
      cases w with
      | idle | flush => exact awaitRest_bides hs
      | close => exact ⟨rfl, by simp [resumeWait, endClose, finish, onAgenda], .finish l.agenda t.id, Agenda.roster_finish ..⟩
      | sleep micros => exact l.finish_bides t.id

end

section

variable {now? : Option Nat} (ho : l.agenda.Orderly now?)
  (hjobs : ∀ k ∈ l.session.tasks, ∀ x ∈ l.agenda.roster, x.1 = k → ∃ j, x.2 = .job j)

include ho hjobs

theorem requests_heeds {r : Stepped} (hr : l.session.Modest r) :
    (r.2.foldl Agenda.heed l.agenda).requests = l.agenda.requests ++ Effect.requests r.2 := by
  rw [Agenda.requests, Agenda.requests, ho.roster_heeds hjobs hr, List.filterMap_append]
  rfl

theorem Carried.ends {r : Stepped} (hc : l.Carried r (fun a => a.endTurn t.id none) m) (hr : l.session.Modest r)
    (hlight : ∀ {task j}, .start task j ∈ r.2 → j.Light) :
    l.agenda.Continues (some t.id) m.agenda ∧ m.agenda.requests = l.agenda.requests ++ Effect.requests r.2 := by
  rw [hc.agenda, ← requests_heeds ho hjobs hr]
  exact ⟨(Agenda.Continues.heeds ho hr hjobs hlight).trans (.finish _ t.id),
    congrArg (List.filterMap _) (Agenda.roster_finish ..)⟩

end

/-- The value of a field is there to be requested when the field's timer goes off. -/
theorem Follows.fieldTimer_requests (hf : m.Follows ts none []) (ht : t ∈ m.agenda.tasks) {id : String}
    (hj : t.work = .job (.fieldTimer id)) (hd : t.stage ≠ .done) (hc : t.cancelled = false) :
    Effect.requests (m.session.fieldTimerFires id).2 = (m.session.valued? id).toList := by
  obtain ⟨us, w, hw, -, hm⟩ := hf
  have he := hm.errands ▸ Agenda.mem_errands_of_job ht hj hd
  obtain ⟨c, hslot⟩ := Session.slot?_isSome_iff.mpr (hw.about _ he id rfl)
  obtain rfl := Session.slot?_id hslot
  have hsound := hw.sound.slot c (Session.slot?_mem hslot)
  have hvalued := hsound.timed (Option.isSome_iff_exists.mpr ⟨_, hsound.ticking _ he rfl hc⟩)
  rw [hm.session] at hslot
  rw [Session.fieldTimerFires_some hslot, Session.dispatch_untimed hslot, Session.valued?_eq hslot]
  cases m.session.cancelStale <;> simp [hvalued, Effect.requests, Work.request?]

/-- What is known of a session after a move: how the tasks go on, and what is started. -/
structure Passed (m : LiveSession) (turn : Option Nat) (n : LiveSession) : Prop where
  continues : m.agenda.Continues turn n.agenda
  passing : m.Passing n
  listeners : ∀ x ∈ n.listeners, x ∈ m.listeners

section

variable (hc : m.Calm) (hf : m.Follows ts none []) {rest : List Turn}
  (hturns : m.agenda.turns = .task t.id :: rest) (ht : t ∈ m.agenda.tasks)

include hc hf hturns ht

/-- The pause of the form is over, and all fields with a value are dispatched. -/
theorem Calm.formTimer_passed (hj : t.work = .job .formTimer) (hcancel : t.cancelled = false) (hs : t.stage = .awake) 
    (hn : n = (((m.onAgenda fun a => { a with turns := rest }).apply Session.formTimerFires).applyEach
      Session.dispatchIfValued).finish t.id) (hnf : n.Follows ts none []) : m.Passed (some t.id) n := by
  have hticks : t.ticks := Task.ticks_iff.mpr ⟨hcancel, by simp [hs], _, hj, by simp [Job.Light]⟩
  have hfires := hf.fires hturns ht hj hcancel hs
  have hcalm : (m.onAgenda fun a => { a with turns := rest }).Calm := hc
  have hfired := hcalm.apply_carried Session.formTimerFires
  generalize (m.onAgenda fun a => { a with turns := rest }).apply Session.formTimerFires = q at *
  have hqcalm : q.Calm := fun x hx => hc x (hfired.listeners ▸ hx)
  have hslots : q.session.slots = m.session.slots := by
    rw [hfired.session]
    rfl
  have hids : q.session.ids = m.session.ids := by rw [Session.ids, Session.ids, hslots]
  have hvalued : q.session.valued? = m.session.valued? := by
    funext id
    rw [Session.valued?, Session.valued?, Session.values, Session.values, hslots]
  have htasks : q.agenda.tasks = m.agenda.tasks := by
    rw [hfired.agenda]
    rfl
  obtain ⟨-, -, hrequests⟩ := Calm.dispatches q.session.ids hqcalm (hids ▸ hfires) (hids ▸ hf.nodup)
  have hwalk : m.agenda.Continues (some t.id) n.agenda := by
    have hvisits : q.agenda.Continues (some t.id) _ := hqcalm.visits_continue hfires
    rw [List.foldl_map, ← hids] at hvisits
    rw [hn]
    exact ((Agenda.Continues.of_tasks htasks).trans hvisits).trans (.finish _ t.id)
  have hdistinct := hnf.orderly.distinct
  refine ⟨hwalk, .fires t ht hticks ?_ ?_ fun u hm hu hne => ?_, fun x hx => ?_⟩
  · have hfinish : n.agenda.requests = (q.applyEach Session.dispatchIfValued).agenda.requests := by
      rw [hn]
      exact congrArg (List.filterMap _) (Agenda.roster_finish ..)
    have hquiet : q.agenda.requests = m.agenda.requests := by
      rw [hfired.agenda]
      rfl
    rw [sought_of_mem hf.orderly.distinct ht hj, Session.sought, hfinish, ← hquiet, ← hids, ← hvalued]
    exact hrequests
  · rw [hn]
    exact Agenda.isDone_finish_self ..
  · exact hwalk.going hdistinct hm (by simpa using Ne.symm hne) (Task.ticks_iff.mp hu).2.1
  · have hlisteners := visits_listeners hqcalm (q.session.ids.map .valued)
    rw [List.foldl_map] at hlisteners
    have hx : x ∈ (q.session.ids.foldl (fun l id => l.apply (Visit.valued id).step) q).listeners := by
      rw [hn] at hx
      exact hx
    exact hfired.listeners ▸ hlisteners ▸ hx


omit hc in
/-- A job has its turn, and starts nothing. -/
theorem Carried.passed {r : Stepped} {pause? : Option Pause}
    (h : (m.onAgenda fun a => { a with turns := rest }).Carried r (fun a => a.endTurn t.id pause?) n)
    (hs : t.stage ≠ .done) (hr : m.session.Modest r) (hstarts : Effect.starts r.2 = [])
    (hpauses : pause?.isSome → r.2 = []) (hticks : t.ticks → pause?.isSome) (hnf : n.Follows ts none []) :
    m.Passed (some t.id) n := by
  have ho := hf.orderly.next_turn hturns
  have hlight : ∀ {task j}, .start task j ∈ r.2 → j.Light := by
    intro task j hj
    have hmem : (task, .job j) ∈ Effect.starts r.2 := List.mem_filterMap.mpr ⟨_, hj, rfl⟩
    rw [hstarts] at hmem
    cases hmem
  have hroster : n.agenda.roster = m.agenda.roster := by
    have hheeds := ho.roster_heeds (fun k hk => hf.tracked hk) hr
    rw [hstarts, List.append_nil] at hheeds
    rw [h.agenda]
    exact (Agenda.roster_endTurn ..).trans hheeds
  have hcontinues : m.agenda.Continues (some t.id) n.agenda := by
    refine (Agenda.Continues.of_tasks (b := { m.agenda with turns := rest }) rfl).trans ?_
    rw [h.agenda]
    cases pause? with
    | none => exact (Agenda.Continues.heeds ho hr (fun k hk => hf.tracked hk) hlight).trans (.finish _ t.id)
    | some pause =>
        rw [hpauses rfl]
        exact .sleep (fun u hu hi => (List.inj_on_of_nodup_map ho.distinct hu ht hi) ▸ hs) pause
  refine ⟨hcontinues, .quiet (h.session ▸ tasks_of_modest hr hstarts) hroster fun u hu hut => ?_, fun x hx => ?_⟩
  · by_cases hi : t.id = u.id
    · obtain rfl := List.inj_on_of_nodup_map hf.orderly.distinct ht hu hi
      obtain ⟨pause, rfl⟩ := Option.isSome_iff_exists.mp (hticks hut)
      have hopen : ({ m.agenda with turns := rest } : Agenda).isDone t.id = false := by
        rw [Agenda.isDone_of_stage (ho.stage_of_mem ht)]
        simpa using hs
      rw [h.agenda, hpauses rfl]
      cases pause <;> exact (Agenda.isDone_setStage_open hopen (by simp) t.id).trans hopen
    · exact hcontinues.going hnf.orderly.distinct hu (by simpa using hi) (Task.ticks_iff.mp hut).2.1
  · exact h.listeners ▸ hx

omit hc in
theorem Carried.field_passed {id : String} (hj : t.work = .job (.fieldTimer id)) (hticks : t.ticks)
    (h : (m.onAgenda fun a => { a with turns := rest }).Carried (m.session.fieldTimerFires id) (fun a => a.endTurn t.id none) n)
    (hnf : n.Follows ts none []) : m.Passed (some t.id) n := by
  obtain ⟨hcancel, hopen, -⟩ := Task.ticks_iff.mp hticks
  obtain ⟨hcontinues, hrequests⟩ := Carried.ends (l := m.onAgenda fun a => { a with turns := rest })
    (hf.orderly.next_turn hturns) (fun k hk => hf.tracked hk) h (m.session.fieldTimerFires_modest id)
    Session.fieldTimerFires_light
  have hgoes : m.agenda.Continues (some t.id) n.agenda :=
    (Agenda.Continues.of_tasks (b := { m.agenda with turns := rest }) rfl).trans hcontinues
  refine ⟨hgoes, .fires t ht hticks ?_ ?_ fun u hu hut hne => ?_, fun x hx => h.listeners ▸ hx⟩
  · rw [sought_of_mem hf.orderly.distinct ht hj, Session.sought, ← hf.fieldTimer_requests ht hj hopen hcancel]
    exact hrequests
  · rw [h.agenda]
    exact Agenda.isDone_finish_self ..
  · exact hgoes.going hnf.orderly.distinct hu (by simpa using Ne.symm hne) (Task.ticks_iff.mp hut).2.1

theorem Calm.job_passed (hj : t.work = .job j) (hn : n = (m.onAgenda fun a => { a with turns := rest }).takeTurn t)
    (hnf : n.Follows ts none []) : m.Passed (some t.id) n := by
  have hstage : t.stage = .fresh ∨ t.stage = .awake := (hf.orderly.next_turn hturns).running_stage ht rfl
  have hcalm : (m.onAgenda fun a => { a with turns := rest }).Calm := hc
  have hmodest := (m.onAgenda fun a => { a with turns := rest }).turnOf_modest t j
  by_cases hoff : t.ticks ∧ t.stage = .awake
  · obtain ⟨hticks, hs⟩ := hoff
    obtain ⟨hcancel, -, i, hi, hlight⟩ := Task.ticks_iff.mp hticks
    obtain rfl : j = i := by simpa [hj] using hi
    cases j with
    | evaluation => exact absurd trivial hlight
    | formTimer =>
        refine hc.formTimer_passed hf hturns ht hj hcancel hs ?_ hnf
        rw [hn, takeTurn, hj, hcancel, hs]
        rfl
    | fieldTimer id =>
        have hturn := hcalm.takeTurn_carried hj hstage (by simp)
        simp only [turnOf, hcancel, hs, Bool.false_eq_true, if_false, reduceCtorEq] at hturn
        exact Carried.field_passed hf hturns ht hj hticks (hn ▸ hturn) hnf
  · have hquiet := (m.onAgenda fun a => { a with turns := rest }).turnOf_quiet hj hstage hoff
    have hturn := hcalm.takeTurn_carried hj hstage fun hform => by
      by_contra hcon
      obtain ⟨hcancel, hfresh⟩ := not_or.mp hcon
      refine hoff ⟨Task.ticks_iff.mpr ⟨by simpa using hcancel, ?_, j, hj, by simp [hform, Job.Light]⟩, hstage.resolve_left hfresh⟩
      simp [hstage.resolve_left hfresh]
    rw [← hn] at hturn
    refine hturn.passed hf hturns ht ?_ hmodest hquiet.1 hquiet.2.1 hquiet.2.2 hnf
    rcases hstage with hs | hs <;> simp [hs]

omit hc in
theorem Undisturbed.wait_passed (hu : m.Undisturbed) {w : Wait} (hw : t.work = .wait w)
    (hn : n = (m.onAgenda fun a => { a with turns := rest }).takeTurn t) (hnf : n.Follows ts none []) :
    m.Passed (some t.id) n := by
  have ho := hf.orderly.next_turn hturns
  have hopen : t.stage ≠ .done := by rcases ho.running_stage ht rfl with hs | hs <;> simp [hs]
  have hbides := takeTurn_bides (l := m.onAgenda fun a => { a with turns := rest })
    (fun u hm hi => List.inj_on_of_nodup_map ho.distinct hm ht hi ▸ hopen) hw fun hfresh => by
      simpa [hw] using hu.waits t ht hfresh
  rw [← hn] at hbides
  have hcontinues : m.agenda.Continues (some t.id) n.agenda :=
    (Agenda.Continues.of_tasks (b := { m.agenda with turns := rest }) rfl).trans hbides.continues
  refine ⟨hcontinues, .quiet (fun k hk => ?_) hbides.roster fun u hm hut => ?_, hbides.listeners⟩
  · rw [hbides.session] at hk
    exact hk
  · obtain ⟨-, hd, j, hj, -⟩ := Task.ticks_iff.mp hut
    refine hcontinues.going hnf.orderly.distinct hm (fun hi => ?_) hd
    obtain rfl := List.inj_on_of_nodup_map hf.orderly.distinct ht hm (Option.some.inj hi)
    cases hw.symm.trans hj

end

theorem Passed.still (hc : m.agenda.Continues turn n.agenda) (hm : m.Follows ts none []) (hn : n.Follows ts none [])
    (hs : n.session = m.session) (hl : n.listeners = m.listeners) (hr : n.agenda.roster = m.agenda.roster)
    (hended : ∀ i, n.agenda.stage? i = some .done → m.agenda.stage? i = some .done) : m.Passed turn n := by
  refine ⟨hc, .quiet (fun k hk => hs ▸ hk) hr fun t ht hticks => ?_, fun x hx => hl ▸ hx⟩
  obtain ⟨x, hx, hlater, -⟩ := hc.later ht
  have hstage := hlater.id ▸ hn.orderly.stage_of_mem hx
  rw [Agenda.isDone_of_stage hstage]
  refine decide_eq_false fun hd => (Task.ticks_iff.mp hticks).2.1 ?_
  have hbefore := hended t.id (hstage.trans (congrArg some hd))
  rw [hm.orderly.stage_of_mem ht] at hbefore
  exact Option.some.inj hbefore

theorem Undisturbed.passed (hu : m.Undisturbed) (hn : m.Onward n) : m.Passed m.agenda.next? n := by
  have hf := hu.lived.attentive.follows
  have hnf := hn.follows hf
  cases hn with
  | turn h =>
      cases nextTurn hf.orderly h with
      | report g rest hturns =>
          have hnext : m.agenda.next? = (m.agenda.gathering? g).map (·.waiter) := by simp [Agenda.next?, hturns]
          have ho := hf.orderly.next_report hturns
          rw [hnext]
          refine .still ?_ hf hnf rfl rfl (Agenda.roster_report ..) fun i hi => ?_
          · exact (Agenda.Continues.of_tasks (b := { m.agenda with turns := rest }) rfl).trans (.report ho g)
          · exact Agenda.ended_report (a := { m.agenda with turns := rest }) hi
      | task t rest hturns ht =>
          have hnext : m.agenda.next? = some t.id := by simp [Agenda.next?, hturns]
          rw [hnext]
          cases hw : t.work with
          | wait w => exact hu.wait_passed hf hturns ht hw rfl hnf
          | job j => exact hu.calm.job_passed hf hturns ht hw rfl hnf
  | alarms _ h =>
      obtain ⟨a, ha, rfl⟩ := Option.map_eq_some_iff.mp h
      exact .still (.advance? hf.orderly ha) hf hnf rfl rfl (Agenda.roster_advance? ha) fun i hi => Agenda.ended_advance? ha hi
  | clock | evaluator => exact .still (.of_tasks rfl) hf hnf rfl rfl rfl fun _ hi => hi

/-- Nothing that happens by itself disturbs the session. -/
theorem Undisturbed.onward (hu : m.Undisturbed) (hn : m.Onward n) : n.Undisturbed := by
  have hp := hu.passed hn
  refine ⟨hu.lived.onward hn, fun x hx => hu.calm x (hp.listeners x hx), fun x hx hfresh => ?_⟩
  rcases hp.continues.task hx with ⟨t, ht, hlater, -⟩ | ⟨field, token, value, hw⟩
  · rw [hlater.work]
    exact hu.waits t ht (hlater.fresh hfresh)
  · simp [hw]

/-! ## What goes off and what is started -/

theorem timers_continue (h : m.agenda.Continues turn n.agenda) : ∀ k ∈ n.timers, k ∈ m.timers := by
  intro k hk
  obtain ⟨x, hx, rfl⟩ := List.mem_map.mp hk
  obtain ⟨hx, hticks⟩ := List.mem_filter.mp hx
  rcases h.task hx with ⟨t, ht, hlater, -⟩ | ⟨field, token, value, hw⟩
  · exact List.mem_map.mpr ⟨t, List.mem_filter.mpr ⟨ht, hlater.ticks hticks⟩, hlater.id.symm⟩
  · obtain ⟨-, -, j, hj, hlight⟩ := Task.ticks_iff.mp hticks
    obtain rfl := Work.job.inj (hw.symm.trans hj)
    exact absurd trivial hlight

theorem timers_nodup (hd : (m.agenda.tasks.map (·.id)).Nodup) : m.timers.Nodup := hd.sublist (List.filter_sublist.map _)

theorem done_of_fired (hd : (n.agenda.tasks.map (·.id)).Nodup) {k : Nat} (hk : n.agenda.isDone k) : k ∉ n.timers := by
  intro hmem
  obtain ⟨x, hx, rfl⟩ := List.mem_map.mp hmem
  obtain ⟨hx, hticks⟩ := List.mem_filter.mp hx
  rw [Agenda.isDone_of_stage (Agenda.stage?_of_mem hd hx), decide_eq_true_eq] at hk
  exact (Task.ticks_iff.mp hticks).2.1 hk

/-- What is requested is what the timers seek that go off. -/
theorem Passing.requests (hp : m.Passing n) (hd : (m.agenda.tasks.map (·.id)).Nodup) :
    (Passage.mk m n).requests = (Passage.mk m n).fired.flatMap m.sought := by
  have live {u : Task} (hu : u ∈ m.agenda.tasks.filter Task.ticks) := List.mem_filter.mp hu
  cases hp with
  | quiet _ hr hended =>
      have hnone : (Passage.mk m n).fired = [] := by
        refine List.filter_eq_nil_iff.mpr fun k hk => ?_
        obtain ⟨u, hu, rfl⟩ := List.mem_map.mp hk
        simp [hended u (live hu).1 (live hu).2]
      rw [hnone]
      simp [Passage.requests, Agenda.requests, hr]
  | fires t ht hticks hr hdone hended =>
      have hmem : t.id ∈ m.timers := List.mem_map_of_mem (List.mem_filter.mpr ⟨ht, hticks⟩)
      have hone : (Passage.mk m n).fired = [t.id] := by
        have hself : ∀ k ∈ m.timers, n.agenda.isDone k = (k == t.id) := by
          intro k hk
          obtain ⟨u, hu, rfl⟩ := List.mem_map.mp hk
          by_cases hi : u.id = t.id
          · simp [hi, hdone]
          · simp [hi, hended u (live hu).1 (live hu).2 hi]
        rw [Passage.fired, List.filter_congr hself, List.filter_beq, List.count_eq_one_of_mem (timers_nodup hd) hmem]
        rfl
      rw [hone]
      simp [Passage.requests, hr]

/-- Along the way each of the timers that were live goes off at most once, and nothing is started but what they seek. -/
theorem Undisturbed.trail (hu : l.Undisturbed) {ps : List Passage} (h : l.Trail ps m) : m.Undisturbed ∧
    (ps.flatMap Passage.fired).Nodup ∧ (∀ k ∈ ps.flatMap Passage.fired, k ∈ l.timers ∧ k ∉ m.timers) ∧
      (∀ k ∈ m.timers, k ∈ l.timers) ∧ ∀ p ∈ ps, p.requests = p.fired.flatMap p.before.sought := by
  induction h with
  | start => exact ⟨hu, List.nodup_nil, by simp, fun k hk => hk, by simp⟩
  | @onward ps m n h hn ih =>
      obtain ⟨hm, hnodup, hfired, htimers, hrequests⟩ := ih
      have hp := hm.passed hn
      have hn' := hm.onward hn
      have hdm := hm.lived.attentive.follows.orderly.distinct
      have hdn := hn'.lived.attentive.follows.orderly.distinct
      -- no timer becomes live again, so one that goes off now has not gone off before
      have hnew : ∀ k ∈ (Passage.mk m n).fired, k ∈ m.timers ∧ k ∉ n.timers := by
        intro k hk
        obtain ⟨hk, hdone⟩ := List.mem_filter.mp hk
        exact ⟨hk, done_of_fired hdn hdone⟩
      rw [List.flatMap_append, List.flatMap_singleton]
      refine ⟨hn', ?_, fun k hk => ?_, fun k hk => htimers k (timers_continue hp.continues k hk), fun p hmem => ?_⟩
      · refine List.nodup_append.mpr ⟨hnodup, (timers_nodup hdm).filter _, fun a ha b hb hab => ?_⟩
        exact (hfired a ha).2 (hab ▸ (hnew b hb).1)
      · rcases List.mem_append.mp hk with hk | hk
        · exact ⟨(hfired k hk).1, fun hmem => (hfired k hk).2 (timers_continue hp.continues k hmem)⟩
        · exact ⟨htimers k (hnew k hk).1, (hnew k hk).2⟩
      · rcases List.mem_append.mp hmem with hmem | hmem
        · exact hrequests p hmem
        · obtain rfl := List.mem_singleton.mp hmem
          exact hp.passing.requests hdm

end LiveSession
end Formwork
