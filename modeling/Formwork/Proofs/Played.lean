import Formwork.Proofs.Moves
import Formwork.Proofs.Schedules
import Formwork.Proofs.Ticks

/-!
Runs in which a session is edited and nothing else is done with it, and the requests that it issues in them.
-/

namespace Formwork

/-- An edit, at a time in microseconds. -/
structure TimedEdit where
  time : Nat
  field : String
  value : Value

/-- The evaluation of a value is requested. -/
structure TimedRequest where
  time : Nat
  field : String
  value : Value

namespace Work

def request? : Work → Option (String × Value)
  | .job (.evaluation id _ requested) => some (id, requested)
  | _ => none

/-- What is done in a session that is only edited. -/
def Suits (mode : Mode) : Work → Prop
  | .job (.fieldTimer _) => mode = .field
  | .job .formTimer => mode = .form
  | .job (.evaluation ..) => True
  | .wait _ => False

theorem Suits.job {mode : Mode} {work : Work} (h : work.Suits mode) : ∃ j, work = .job j := by
  cases work with
  | job j => exact ⟨j, rfl⟩
  | wait w => cases h

end Work

namespace Effect

/-- The values whose evaluations are to be started. -/
def requests (effects : List Effect) : List (String × Value) := (starts effects).filterMap fun x => x.2.request?

theorem requests_shows (states : List FieldState) : requests (states.map .show) = [] := by
  simp [requests]

end Effect

namespace Agenda

/-- What has been requested, in order. -/
def requests (a : Agenda) : List (String × Value) := a.roster.filterMap fun x => x.2.request?

end Agenda

namespace LiveSession

variable {l m n : LiveSession} {ts : List World.Transition} {t : Task} {c : Slot} {j : Job}

/-- What is requested between two moments that are the same time or follow on a pause. -/
def requestsUntil (l m : LiveSession) : List TimedRequest :=
  (m.agenda.requests.drop l.agenda.requests.length).map fun x => ⟨m.now, x.1, x.2⟩

theorem requestsUntil_of_requests {new : List (String × Value)} (h : m.agenda.requests = l.agenda.requests ++ new) :
    l.requestsUntil m = new.map fun x => ⟨m.now, x.1, x.2⟩ := by
  rw [requestsUntil, h, List.drop_left]

theorem requestsUntil_of_roster {new : List (Nat × Work)} (h : m.agenda.roster = l.agenda.roster ++ new) :
    l.requestsUntil m = (new.filterMap fun x => x.2.request?).map fun x => ⟨m.now, x.1, x.2⟩ :=
  requestsUntil_of_requests (by rw [Agenda.requests, Agenda.requests, h, List.filterMap_append])

theorem requestsUntil_same (h : m.agenda.roster = l.agenda.roster) : l.requestsUntil m = [] :=
  requestsUntil_of_roster (h.trans (List.append_nil _).symm)

/-- The session is edited at some moments, and all else happens by itself. -/
inductive Played (l : LiveSession) : List TimedEdit → List TimedRequest → LiveSession → Prop
  | start : Played l [] [] l
  | edit {es : List TimedEdit} {rs : List TimedRequest} {m : LiveSession} (h : Played l es rs m) (id : String)
      (value : Value) {state : FieldState} (he : (m.edit id value).2 = .ok state) :
      Played l (es ++ [⟨m.now, id, value⟩]) (rs ++ m.requestsUntil (m.edit id value).1) (m.edit id value).1
  | onward {es : List TimedEdit} {rs : List TimedRequest} {m n : LiveSession} (h : Played l es rs m) (hn : m.Onward n) :
      Played l es (rs ++ m.requestsUntil n) n

/-! ## What the jobs are to the session -/

namespace Follows

theorem tracked {running : Option (Nat × Work)} {visits : List Visit} (h : l.Follows ts running visits) {k : Nat}
    (hk : k ∈ l.session.tasks) : ∀ x ∈ l.agenda.roster, x.1 = k → ∃ j, x.2 = .job j := by
  obtain ⟨us, w, hw, hv, hm⟩ := h
  exact hm.tracked k hk

section

variable (h : l.Follows ts none [])

include h

theorem task_lt (ht : t ∈ l.agenda.tasks) : t.id < l.session.nextTask := by
  obtain ⟨us, w, hw, hv, hm⟩ := h
  exact hm.below _ (List.mem_map_of_mem ht)

/-- The session among its jobs is a world in which all is kept straight. -/
theorem sound : ∃ w : World, w.Sound ∧ w.session = l.session ∧ ∀ t ∈ l.agenda.tasks, ∀ j, t.work = .job j →
    t.stage ≠ .done → { id := t.id, job := j, begun := t.stage ≠ .fresh, cancelled := t.cancelled } ∈ w.errands := by
  obtain ⟨us, w, hw, hv, hm⟩ := h
  refine ⟨w, hw.sound, hm.session, fun t ht j hj hd => ?_⟩
  rw [hm.errands]
  exact Agenda.mem_errands_of_job ht hj hd

theorem timer_job (ht : t ∈ l.agenda.tasks) (hj : t.work = .job j) (hd : t.stage ≠ .done) (hc : c ∈ l.session.slots)
    (hk : c.timer = some t.id) : j = .fieldTimer c.field.id := by
  obtain ⟨w, hw, hs, he⟩ := h.sound
  exact (hw.slot c (hs ▸ hc)).timer_job _ (he t ht j hj hd) hk

theorem inflight_job (ht : t ∈ l.agenda.tasks) (hj : t.work = .job j) (hd : t.stage ≠ .done) (hc : c ∈ l.session.slots)
    (hk : c.inflight = some t.id) : ∃ token v, j = .evaluation c.field.id token v := by
  obtain ⟨w, hw, hs, he⟩ := h.sound
  exact (hw.slot c (hs ▸ hc)).inflight_job _ (he t ht j hj hd) hk

theorem ticking (ht : t ∈ l.agenda.tasks) (hj : t.work = .job (.fieldTimer c.field.id)) (hd : t.stage ≠ .done)
    (hcancel : t.cancelled = false) (hc : c ∈ l.session.slots) : c.timer = some t.id := by
  obtain ⟨w, hw, hs, he⟩ := h.sound
  exact (hw.slot c (hs ▸ hc)).ticking _ (he t ht _ hj hd) rfl hcancel

theorem slot?_of_mem (hc : c ∈ l.session.slots) : l.session.slot? c.field.id = some c := by
  obtain ⟨w, hw, hs, -⟩ := h.sound
  exact hs ▸ hw.slot?_of_mem (hs ▸ hc)

theorem nodup : l.session.ids.Nodup := by
  obtain ⟨w, hw, hs, -⟩ := h.sound
  obtain ⟨schema, hv, hi⟩ := hw.compiled
  rw [← hs, hi]
  exact Validator.ofSchema_nodup hv

end

end Follows

/-! ## Runs of jobs alone -/

/-- What is so after edits of a session, and what has happened since by itself. -/
structure Driven (l m : LiveSession) : Prop extends Same l m where
  follows : m.Follows [] none []
  calm : m.Calm
  plain : m.agenda.Plain
  suits : m.agenda.Only (Work.Suits l.session.mode)

namespace Driven

theorem mem_job (h : l.Driven m) (ht : t ∈ m.agenda.tasks) : ∃ j, t.work = .job j := (h.suits.mem ht).job

theorem not_close (h : l.Driven m) : m.agenda.Only (· ≠ .wait .close) := fun x hx he => by
  have hs := h.suits x hx
  rw [he] at hs
  exact hs

theorem jobs (h : l.Driven m) : ∀ x ∈ m.agenda.roster, ∃ j, x.2 = .job j := fun x hx => (h.suits x hx).job

theorem below (h : l.Driven m) : ∀ x ∈ m.agenda.roster, x.1 < m.session.nextTask := by
  intro x hx
  obtain ⟨t, ht, rfl⟩ := List.mem_map.mp hx
  exact h.follows.task_lt ht

theorem task_of_turn (h : l.Driven m) {k : Nat} (hk : .task k ∈ m.agenda.turns) :
    ∃ t ∈ m.agenda.tasks, t.id = k ∧ (t.stage = .fresh ∨ t.stage = .awake) := by
  have hdue : k ∈ m.agenda.due none := List.mem_filterMap.mpr ⟨.task k, hk, rfl⟩
  rcases h.follows.orderly.ready k hdue with hs | hs
  · obtain ⟨t, ht, hstage⟩ := Option.map_eq_some_iff.mp hs
    exact ⟨t, (Agenda.task?_mem ht).1, (Agenda.task?_mem ht).2, .inl hstage⟩
  · obtain ⟨t, ht, hstage⟩ := Option.map_eq_some_iff.mp hs
    exact ⟨t, (Agenda.task?_mem ht).1, (Agenda.task?_mem ht).2, .inr hstage⟩

theorem task_of_alarm (h : l.Driven m) {x : Alarm} (hx : x ∈ m.agenda.alarms) :
    ∃ t ∈ m.agenda.tasks, t.id = x.task := by
  obtain ⟨t, ht, -⟩ := Option.map_eq_some_iff.mp (h.follows.orderly.asleep x hx)
  exact ⟨t, Agenda.task?_mem ht⟩

/-- The session knows of no task that is still to come. -/
theorem slot_lt (h : l.Driven m) (hc : c ∈ m.session.slots) {k : Nat} (hk : c.timer = some k ∨ c.inflight = some k) :
    k < m.session.nextTask := by
  obtain ⟨w, hw, hs, -⟩ := h.follows.sound
  rw [← hs]
  exact hk.elim ((hw.slot c (hs ▸ hc)).timer_lt k) ((hw.slot c (hs ▸ hc)).inflight_lt k)

/-- The next turn is that of a job. -/
theorem turn_cases (h : l.Driven m) (ht : m.turn? = some n) : ∃ t ∈ m.agenda.tasks, m.agenda.task? t.id = some t ∧
    (t.stage = .fresh ∨ t.stage = .awake) ∧ ∃ rest, m.agenda.turns = .task t.id :: rest ∧
      n = (m.onAgenda fun a => { a with turns := rest }).takeTurn t := by
  unfold turn? at ht
  cases hturns : m.agenda.turns with
  | nil => simp [hturns] at ht
  | cons turn rest =>
      obtain ⟨k, rfl⟩ := h.plain.turns turn (hturns ▸ List.mem_cons_self ..)
      simp only [hturns, Option.some.injEq] at ht
      obtain ⟨t, hmem, rfl, hready⟩ := h.task_of_turn (hturns ▸ List.mem_cons_self ..)
      have hfound := Agenda.task?_of_mem h.follows.orderly.distinct hmem
      have htask : (m.onAgenda fun a => { a with turns := rest }).agenda.task? t.id = some t := hfound
      simp only [htask] at ht
      exact ⟨t, hmem, hfound, hready, rest, rfl, ht.symm⟩

/-- The tasks that a step cancels are no new ones. -/
theorem cancelled_ids (h : l.Driven m) {ks : List Nat} (hk : ∀ k ∈ ks, k ∈ m.session.tasks) :
    ∀ t ∈ (ks.foldl Agenda.cancel m.agenda).tasks, t.id ≠ m.session.nextTask := by
  intro t ht
  have hroster := (h.follows.orderly.cancelled_all fun k hm => h.follows.tracked (hk k hm)).2.1
  have hmem : (t.id, t.work) ∈ m.agenda.roster := hroster ▸ List.mem_map_of_mem ht
  obtain ⟨u, hu, he⟩ := List.mem_map.mp hmem
  obtain ⟨hid, -⟩ := Prod.mk.inj he
  exact hid ▸ Nat.ne_of_lt (h.follows.task_lt hu)

/-- A step starts a job that waits out a pause. -/
theorem starts_pause (h : l.Driven m) {r : Stepped} (hc : m.Carried r (fun a => a) n) (ks : List Nat) (job : Job)
    (state : FieldState) (hr : r.2 = ks.map .cancel ++ [.start m.session.nextTask job, .show state])
    (hk : ∀ k ∈ ks, k ∈ m.session.tasks) (pause : Nat) :
    n.agenda.Ticks m.session.nextTask (.job job) m.now pause := by
  have hstart := Agenda.Ticks.of_start (h.cancelled_ids hk) (.job job) pause
  rw [Agenda.cancels_now] at hstart
  rw [hc.agenda, hr, List.foldl_append, Agenda.heeds_cancels]
  exact hstart

theorem edit (h : l.Driven m) (id : String) (value : Value) : l.Driven (m.edit id value).1 := by
  have hcarried := h.calm.edit_carried id value
  have halike := hcarried.session ▸ m.session.edit_alike id value
  have hsame : m.Same (m.edit id value).1 :=
    ⟨halike, hcarried.fieldPause, hcarried.formPause, hcarried.listeners⟩
  refine ⟨h.toSame.trans hsame, edit_follows h.follows id value, hsame.calm h.calm, ?_, ?_⟩
  · rw [hcarried.agenda]
    exact h.plain.heeds _
  · rw [hcarried.agenda]
    refine h.suits.heeds fun {task j} hj => ?_
    rw [← h.alike.mode]
    rcases m.session.edit_cases id value with ⟨he, -⟩ | ⟨a, -, -, hedited⟩
    · rw [he] at hj
      cases hj
    · generalize (m.session.edit id value).1 = r at hj hedited
      cases hedited with
      | broken | cleared | unadvised => simp at hj
      | pausedAlone _ _ _ _ hm =>
          obtain ⟨-, rfl⟩ : task = m.session.nextTask ∧ j = _ := by simpa using hj
          exact hm
      | pausedTogether _ _ _ _ hm =>
          obtain ⟨-, rfl⟩ : task = m.session.nextTask ∧ j = _ := by simpa using hj
          exact hm

theorem takeTurn_plain (hc : m.Calm) (hp : m.agenda.Plain) (hj : ∃ j, t.work = .job j)
    (hs : t.stage = .fresh ∨ t.stage = .awake) : (m.takeTurn t).agenda.Plain := by
  have apply : ∀ {m : LiveSession} (step : Session → Stepped), m.Calm → m.agenda.Plain →
      (m.apply step).Calm ∧ (m.apply step).agenda.Plain := by
    intro m step hc hp
    rw [hc.apply_eq]
    exact ⟨hc, hp.heeds _⟩
  have walk : ∀ (ids : List String) {m : LiveSession}, m.Calm → m.agenda.Plain →
      (ids.foldl (fun m id => m.apply (Session.dispatchIfValued id)) m).agenda.Plain := by
    intro ids
    induction ids with
    | nil => exact fun _ hp => hp
    | cons id ids ih =>
        intro m hc hp
        obtain ⟨hc', hp'⟩ := apply (Session.dispatchIfValued id) hc hp
        exact ih hc' hp'
  obtain ⟨j, hj⟩ := hj
  by_cases hform : j = .formTimer → t.cancelled ∨ t.stage = .fresh
  · rw [(hc.takeTurn_carried hj hs hform).agenda]
    unfold Agenda.endTurn
    split
    · exact (hp.heeds _).finish t.id
    · exact (hp.heeds _).sleep t.id _
  · simp only [Classical.not_imp, not_or, Bool.not_eq_true] at hform
    obtain ⟨rfl, hcancel, hfresh⟩ := hform
    obtain ⟨hc', hp'⟩ := apply Session.formTimerFires hc hp
    have hwalk : (((m.apply Session.formTimerFires).applyEach Session.dispatchIfValued).finish t.id).agenda.Plain :=
      (walk (m.apply Session.formTimerFires).session.ids hc' hp').finish t.id
    simpa only [takeTurn, hj, hcancel, hs.resolve_left hfresh, resume] using hwalk

theorem onward (h : l.Driven m) (hn : m.Onward n) : l.Driven n := by
  have hsame := hn.same h.calm h.not_close
  refine ⟨h.toSame.trans hsame, hn.follows h.follows, hsame.calm h.calm, ?_,
    hn.only h.calm h.suits (fun hw => hw) fun _ _ _ => trivial⟩
  cases hn with
  | turn ht =>
      obtain ⟨t, hmem, -, hs, rest, hturns, rfl⟩ := h.turn_cases ht
      exact takeTurn_plain h.calm (h.plain.pop hturns) (h.mem_job hmem) hs
  | alarms _ ha =>
      obtain ⟨a, hadvance, rfl⟩ := Option.map_eq_some_iff.mp ha
      obtain ⟨x, -, rfl, -⟩ := Agenda.advance?_some hadvance
      exact h.plain.passTo x.due
  | clock => exact h.plain.congr rfl rfl fun _ hm => hm
  | evaluator => exact h.plain

end Driven

/-! ## Turns -/

/-- A task had its turn: the session took a step, and the task ended or paused. -/
structure Turned (m : LiveSession) (t : Task) (r : Stepped) (pause? : Option Pause) (n : LiveSession) : Prop where
  task : m.agenda.task? t.id = some t
  ready : t.stage = .fresh ∨ t.stage = .awake
  modest : m.session.Modest r
  carried : ∃ rest, m.agenda.turns = .task t.id :: rest ∧
    (m.onAgenda fun a => { a with turns := rest }).Carried r (fun a => a.endTurn t.id pause?) n

namespace Turned

variable {r : Stepped} {pause? : Option Pause} (ht : m.Turned t r pause? n)

include ht

theorem session : n.session = r.1 := by
  obtain ⟨rest, -, hc⟩ := ht.carried
  exact hc.session

theorem now : n.now = m.now := by
  obtain ⟨rest, -, hc⟩ := ht.carried
  rw [LiveSession.now, hc.agenda]
  exact (Agenda.endTurn_now ..).trans (Agenda.heeds_now ..)

theorem requests (h : l.Driven m) : m.requestsUntil n = (Effect.requests r.2).map fun x => ⟨m.now, x.1, x.2⟩ := by
  obtain ⟨rest, hturns, hc⟩ := ht.carried
  have hroster : n.agenda.roster = m.agenda.roster ++ Effect.starts r.2 := by
    rw [hc.agenda, Agenda.roster_endTurn]
    exact (h.follows.orderly.next_turn hturns).roster_heeds (fun k hk => h.follows.tracked hk) ht.modest
  rw [requestsUntil_of_roster hroster, ht.now]
  rfl

theorem spares (h : l.Driven m) {k : Nat} (hk : k ≠ t.id) (hsome : (m.agenda.task? k).isSome)
    (hcancel : .cancel k ∉ r.2) : m.agenda.Spares k n.agenda := by
  obtain ⟨rest, hturns, hc⟩ := ht.carried
  have hplain : ({ m.agenda with turns := rest } : Agenda).Plain := h.plain.pop hturns
  have hpop : Agenda.Spares k m.agenda { m.agenda with turns := rest } :=
    .pop hturns fun he => hk (Turn.task.inj he).symm
  have hheeds : Agenda.Spares k { m.agenda with turns := rest } (r.2.foldl Agenda.heed { m.agenda with turns := rest }) :=
    .heeds hplain hsome hcancel
  rw [hc.agenda]
  exact (hpop.trans hheeds).trans (.endTurn (hplain.heeds r.2) (Ne.symm hk) pause?)

end Turned

/-- The next turn is that of a job. -/
theorem Driven.turned (h : l.Driven m) (ht : m.turn? = some n) : ∃ t ∈ m.agenda.tasks, ∃ j, t.work = .job j ∧
    ((j = .formTimer → t.cancelled ∨ t.stage = .fresh) ∧ m.Turned t (m.turnOf t j).1 (m.turnOf t j).2 n ∨
      j = .formTimer ∧ t.cancelled = false ∧ t.stage = .awake ∧ m.agenda.task? t.id = some t ∧
        ∃ rest, m.agenda.turns = .task t.id :: rest ∧ n = (((m.onAgenda fun a => { a with turns := rest }).apply
          Session.formTimerFires).applyEach Session.dispatchIfValued).finish t.id) := by
  obtain ⟨t, hmem, htask, hs, rest, hturns, rfl⟩ := h.turn_cases ht
  obtain ⟨j, hj⟩ := h.mem_job hmem
  refine ⟨t, hmem, j, hj, ?_⟩
  have hcalm : (m.onAgenda fun a => { a with turns := rest }).Calm := h.calm
  by_cases hform : j = .formTimer → t.cancelled ∨ t.stage = .fresh
  · exact .inl ⟨hform, htask, hs, m.turnOf_modest t j, rest, hturns, hcalm.takeTurn_carried hj hs hform⟩
  · simp only [Classical.not_imp, not_or, Bool.not_eq_true] at hform
    obtain ⟨rfl, hcancel, hfresh⟩ := hform
    refine .inr ⟨rfl, hcancel, hs.resolve_left hfresh, htask, rest, hturns, ?_⟩
    simp only [takeTurn, hj, hcancel, hs.resolve_left hfresh, resume]

/-- Where each field is evaluated on its own, every turn is that of a job about a field. -/
theorem Driven.turned_alone (h : l.Driven m) (hmode : m.session.mode = .field) (ht : m.turn? = some n) :
    ∃ t ∈ m.agenda.tasks, ∃ j, t.work = .job j ∧ (∃ id, j.field? = some id) ∧
      m.Turned t (m.turnOf t j).1 (m.turnOf t j).2 n := by
  obtain ⟨t, hmem, j, hj, hcases⟩ := h.turned ht
  have hfield : ∃ id, j.field? = some id := by
    have hs := h.suits.mem hmem
    rw [hj, ← h.alike.mode, hmode] at hs
    cases j with
    | formTimer => cases hs
    | fieldTimer id | evaluation id => exact ⟨id, rfl⟩
  rcases hcases with ⟨-, hturned⟩ | ⟨rfl, -⟩
  · exact ⟨t, hmem, j, hj, hfield, hturned⟩
  · obtain ⟨id, hid⟩ := hfield
    cases hid

/-- An edit requests nothing at once. -/
theorem Driven.edit_agenda_requests (h : l.Driven m) (id : String) (value : Value) :
    (m.edit id value).1.agenda.requests = m.agenda.requests := by
  have hroster := h.follows.orderly.roster_heeds (fun k hk => h.follows.tracked hk) (m.session.edit_modest id value)
  rw [← (h.calm.edit_carried id value).agenda] at hroster
  have hnone : Effect.requests (m.session.edit id value).1.2 = [] := by
    rcases m.session.edit_cases id value with ⟨he, -⟩ | ⟨a, -, -, hedited⟩
    · rw [he]
      rfl
    · generalize (m.session.edit id value).1 = r at hedited
      cases hedited <;> simp [Effect.requests, Work.request?]
  rw [Agenda.requests, Agenda.requests, hroster, List.filterMap_append]
  exact (congrArg _ hnone).trans (List.append_nil _)

theorem Driven.edit_requests (h : l.Driven m) (id : String) (value : Value) :
    m.requestsUntil (m.edit id value).1 = [] := by
  rw [requestsUntil, h.edit_agenda_requests, List.drop_length]
  rfl

/-! ## Runs -/

theorem Driven.opened {s : Session} (hs : s.Opened) (evaluator : Evaluator) (fieldPause formPause : Pause)
    {listeners : List Listener} (hl : ∀ x ∈ listeners, ∀ state, x.respond state = []) :
    Driven { session := s, evaluator, fieldPause, formPause, listeners }
      { session := s, evaluator, fieldPause, formPause, listeners } :=
  ⟨.refl _, opened_follows hs rfl rfl, hl, ⟨rfl, by simp, by simp⟩, by simp [Agenda.Only, Agenda.roster]⟩

theorem Played.driven {es : List TimedEdit} {rs : List TimedRequest} (hp : l.Played es rs m) (h : l.Driven l) :
    l.Driven m := by
  induction hp with
  | start => exact h
  | edit _ id value _ ih => exact ih.edit id value
  | onward _ hn ih => exact ih.onward hn

theorem Played.runUntil {es : List TimedEdit} {rs : List TimedRequest} (hp : l.Played es rs m) (limit fuel : Nat) :
    ∃ rs', l.Played es (rs ++ rs') (m.runUntil limit fuel) := by
  induction fuel generalizing rs m with
  | zero => exact ⟨[], (List.append_nil rs).symm ▸ hp⟩
  | succ fuel ih =>
      cases ht : m.tick? limit with
      | some n =>
          rw [runUntil_tick ht]
          obtain ⟨rs', hrs⟩ := ih (hp.onward (.tick ht))
          exact ⟨_, List.append_assoc .. ▸ hrs⟩
      | none =>
          rw [runUntil_over ht]
          exact ⟨_, hp.onward (.stop ht)⟩

/-- It goes on until any time. -/
theorem Played.goes_on {es : List TimedEdit} {rs : List TimedRequest} (hp : l.Played es rs m) (h : l.Driven l)
    (limit : Nat) : ∃ enough n rs', (∀ fuel, enough ≤ fuel → m.runUntil limit fuel = n) ∧ l.Played es (rs ++ rs') n ∧
      n.turn? = none ∧ limit ≤ n.now := by
  have hm := hp.driven h
  obtain ⟨n, hn⟩ := hm.calm.passes hm.follows limit
  obtain ⟨hrest, enough, hrun⟩ := hn.runUntil
  simp only [restsAt, Bool.and_eq_true, Option.isNone_iff_eq_none, decide_eq_true_eq] at hrest
  obtain ⟨rs', hplayed⟩ := hp.runUntil limit enough
  rw [hrun enough (Nat.le_refl _)] at hplayed
  exact ⟨enough, n, rs', hrun, hplayed, hrest.1.1, hrest.2⟩

end LiveSession
end Formwork
