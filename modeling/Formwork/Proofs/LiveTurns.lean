import Formwork.Proofs.Mirrors

/-!
Every turn of a live session is a list of events of its world.
-/

namespace Formwork

open World

theorem World.Sound.tasks_lt {w : World} (h : w.Sound) {k : Nat} (hk : k ∈ w.session.tasks) :
    k < w.session.nextTask := by
  rcases Session.mem_tasks.mp hk with hf | ⟨c, hc, ht | hi⟩
  · exact h.form_lt k hf
  · exact (h.slot c hc).timer_lt k ht
  · exact (h.slot c hc).inflight_lt k hi

theorem World.without_markBegun (w : World) (task : Nat) : (w.markBegun task).without task = w.without task := by
  have hid : ∀ e : Errand, (if e.id = task then { e with begun := true } else e).id = e.id := by
    intro e
    split <;> rfl
  unfold World.without World.markBegun
  congr 1
  rw [List.filter_map]
  simp only [Function.comp_def, hid]
  refine (List.map_congr_left fun e he => ?_).trans (List.map_id _)
  exact if_neg (by simpa using (List.mem_filter.mp he).2)

namespace LiveSession

variable {l : LiveSession} {running : Option (Nat × Work)} {w : World} {ts us : List Transition}
  {task : Nat} {work : Work}

/-! ## The end of a turn -/

/-- The agenda goes on without the session. -/
theorem Mirrors.onAgenda (hm : l.Mirrors running w) {a : Agenda} (ho : a.Orderly none)
    (hr : a.roster = l.agenda.roster) {w' : World} (hs : w'.session = w.session)
    (he : w'.errands = a.errands none) : ({ l with agenda := a } : LiveSession).Mirrors none w' :=
  ⟨hs.trans hm.session, he, ho, by simp, fun x hx => hm.below x (hr ▸ hx),
    fun k hk x hx => hm.tracked k hk x (hr ▸ hx)⟩

theorem finish_follows (h : l.Follows ts (some (task, work)) []) : (l.finish task).Follows ts none [] := by
  obtain ⟨us, w, hw, hv, hm⟩ := h
  exact ⟨us, w, hw, hv, hm.onAgenda hm.orderly.finish (Agenda.roster_finish ..) rfl
    (hm.errands.trans (Agenda.finish_errands ..).symm)⟩

theorem gather_follows {wait : Wait} (h : l.Follows ts (some (task, .wait wait)) []) (children : List Nat) :
    (l.onAgenda fun a => a.gather task children).Follows ts none [] := by
  obtain ⟨us, w, hw, hv, hm⟩ := h
  have hwait : ∀ t ∈ l.agenda.tasks, t.id = task → ∃ w, t.work = .wait w := fun t ht hi =>
    ⟨wait, hm.orderly.work_of_roster (hm.present _ rfl) ht hi⟩
  refine ⟨us, w, hw, hv, hm.onAgenda (hm.orderly.gather hwait children) (Agenda.roster_gather ..) rfl ?_⟩
  rw [Agenda.gather_errands hwait]
  exact hm.errands.trans (Agenda.errands_of_wait hwait)

theorem sleep_wait_follows {wait : Wait} (h : l.Follows ts (some (task, .wait wait)) []) (pause : Pause) :
    (l.onAgenda fun a => a.sleep task pause).Follows ts none [] := by
  obtain ⟨us, w, hw, hv, hm⟩ := h
  have hwait : ∀ t ∈ l.agenda.tasks, t.id = task → ∃ w, t.work = .wait w := fun t ht hi =>
    ⟨wait, hm.orderly.work_of_roster (hm.present _ rfl) ht hi⟩
  refine ⟨us, w, hw, hv, hm.onAgenda (hm.orderly.sleep pause) (Agenda.roster_sleep ..) rfl ?_⟩
  have he := hm.errands.trans (Agenda.errands_of_wait hwait)
  have hid : ∀ e ∈ l.agenda.errands none, e.id ≠ task := by
    rw [← Agenda.errands_of_wait hwait, Agenda.errands_some]
    intro e he
    simpa using (List.mem_filter.mp he).2
  rw [Agenda.sleep_errands hm.orderly, he]
  exact ((List.map_congr_left fun e he => if_neg (hid e he)).trans (List.map_id _)).symm

/-! ## Turns of jobs -/

theorem addMark_same (l : LiveSession) (recorded : Bool) (stage : Stage) (field : String) (value : Value) :
    (l.addMark recorded stage field value).session = l.session ∧
      (l.addMark recorded stage field value).agenda = l.agenda := by
  unfold addMark
  split <;> exact ⟨rfl, rfl⟩

section

variable (hm : l.Mirrors (some (task, work)) (w.without task)) (hw : History (ts ++ us) w) (hv : w.visits = [])

include hm hw hv

theorem settle_follows {id : String} {token : Nat} {requested : Value} {e : Errand} (he : e ∈ w.errands)
    (hid : e.id = task) (hj : e.job = .evaluation id token requested) (hb : e.begun) (ending : Session.Ending) :
    (l.apply fun s => s.settle task id token requested ending).Follows ts (some (task, work)) [] := by
  obtain rfl := hid
  have hstep := hw.step (.answer e id token requested ending hv he hj hb)
  have hsession : w.session = l.session := hm.session
  rw [List.append_assoc, hsession] at hstep
  exact apply_follows (l.session.settle_modest ..) hm hstep hv rfl rfl

/-- An evaluation that has begun gives its answer. -/
theorem answer_follows {id : String} {token : Nat} {requested : Value} {e : Errand} (he : e ∈ w.errands)
    (hid : e.id = task) (hj : e.job = .evaluation id token requested) (hb : e.begun) :
    (l.answer task id token requested).Follows ts none [] := by
  obtain ⟨hs, ha⟩ := l.addMark_same (l.planFor id requested).recorded (l.planFor id requested).answer.endStage
    id requested
  exact finish_follows (settle_follows (hm.congr hs ha) hw hv he hid hj hb _)

theorem interrupt_follows {id : String} {token : Nat} {requested : Value} {e : Errand} (he : e ∈ w.errands)
    (hid : e.id = task) (hj : e.job = .evaluation id token requested) (hb : e.begun) :
    (l.interrupt task id token requested).Follows ts none [] := by
  obtain ⟨hs, ha⟩ := l.addMark_same (l.planFor id requested).recorded .cancelled id requested
  exact finish_follows (settle_follows (hm.congr hs ha) hw hv he hid hj hb _)

theorem fieldTimerFires_follows {e : Errand} {id : String} (he : e ∈ w.errands) (hid : e.id = task)
    (hj : e.job = .fieldTimer id) (hb : e.begun) (hc : e.cancelled = false) :
    (l.apply fun s => s.fieldTimerFires id).Follows ts (some (task, work)) [] := by
  have hsession : w.session = l.session := hm.session
  have hstep := hw.step (.fieldPauseOver e id hv he hj hb hc)
  rw [List.append_assoc, hsession, hid] at hstep
  exact apply_follows (l.session.fieldTimerFires_modest id) hm hstep hv rfl rfl

/-- The pause of the form is over, and the walk over the fields begins. -/
theorem formTimerFires_follows {e : Errand} (he : e ∈ w.errands) (hid : e.id = task) (hj : e.job = .formTimer)
    (hb : e.begun) (hc : e.cancelled = false) :
    (l.apply Session.formTimerFires).Follows ts (some (task, work)) (l.session.ids.map .valued) := by
  have hsession : w.session = l.session := hm.session
  have hstep := hw.step (.formPauseOver e hv he hj hb hc)
  rw [List.append_assoc, hsession, hid] at hstep
  exact apply_follows l.session.formTimerFires_modest hm hstep rfl rfl
    (congrArg World.errands (absorb_nil (w.without task))).symm

theorem resume_follows {e : Errand} (he : e ∈ w.errands) (hid : e.id = task) (hb : e.begun)
    (hc : e.cancelled = false) : (l.resume task e.job).Follows ts none [] := by
  cases hj : e.job with
  | fieldTimer id => exact finish_follows (fieldTimerFires_follows hm hw hv he hid hj hb hc)
  | formTimer => exact finish_follows (applyEach_follows .valued (formTimerFires_follows hm hw hv he hid hj hb hc))
  | evaluation id token requested => exact answer_follows hm hw hv he hid hj hb

/-- A task that is cancelled has its last turn. -/
theorem abandon_follows {e : Errand} (he : e ∈ w.errands) (hid : e.id = task) (hc : e.cancelled)
    (stage : TaskStage) (hb : e.begun = decide (stage ≠ .fresh)) : (l.abandon task stage e.job).Follows ts none [] := by
  have vanish : (∀ id token requested, e.job = .evaluation id token requested → e.begun = false) →
      (l.finish task).Follows ts none [] := by
    intro hj
    have hstep := hw.step (.vanish e hv he hc hj)
    rw [List.append_assoc, hid] at hstep
    exact finish_follows ⟨_, _, hstep, hv, hm⟩
  cases hj : e.job with
  | fieldTimer id => exact vanish (by simp [hj])
  | formTimer => exact vanish (by simp [hj])
  | evaluation id token requested =>
      rw [abandon]
      by_cases hs : stage = .fresh
      · rw [if_pos hs]
        exact vanish fun _ _ _ _ => by simp [hb, hs]
      · rw [if_neg hs]
        exact interrupt_follows hm hw hv he hid hj (by simp [hb, hs])

theorem begin_follows (hall : w.errands = l.agenda.errands none) {e : Errand} (he : e ∈ w.errands) (hid : e.id = task)
    (hb : e.begun = false) (hc : e.cancelled = false) : (l.begin task e.job).Follows ts none [] := by
  have hstep := hw.step (.begin e hv he hb hc)
  rw [List.append_assoc, hid] at hstep
  have sleep : ∀ (m : LiveSession) pause, m.session = l.session → m.agenda = l.agenda →
      (m.onAgenda fun a => a.sleep task pause).Follows ts none [] := by
    intro m pause hs ha
    have hm' := hm.congr hs ha
    refine ⟨_, _, hstep, hv, hm'.onAgenda (hm'.orderly.sleep pause) (Agenda.roster_sleep ..) rfl ?_⟩
    rw [Agenda.sleep_errands hm'.orderly, ha, ← hall]
    rfl
  cases hj : e.job with
  | fieldTimer id => exact sleep l _ rfl rfl
  | formTimer => exact sleep l _ rfl rfl
  | evaluation id token requested =>
      obtain ⟨hs, ha⟩ := l.addMark_same (l.planFor id requested).recorded .start id requested
      simp only [begin]
      split
      · rw [← without_markBegun] at hm
        have hbegun : { e with begun := true } ∈ (w.markBegun task).errands :=
          List.mem_map.mpr ⟨e, he, if_pos hid⟩
        exact answer_follows (hm.congr hs ha) hstep hv hbegun hid hj rfl
      · exact sleep _ _ hs ha

end

/-! ## Turns of waits -/

theorem awaitRest_follows {wait : Wait} (h : l.Follows ts (some (task, .wait wait)) []) :
    (l.awaitRest task).Follows ts none [] := by
  simp only [awaitRest]
  split
  · exact finish_follows h
  · exact gather_follows h _

theorem endClose_follows (h : l.Follows ts (some (task, work)) []) : (l.endClose task).Follows ts none [] :=
  finish_follows (h.congr rfl rfl)

theorem close_follows {running : Option (Nat × Work)} (h : l.Follows ts running []) :
    (l.apply Session.close).Follows ts running [] := by
  obtain ⟨us, w, hw, hv, hm⟩ := h
  have hstep := hw.step (.close hv)
  rw [List.append_assoc, hm.session] at hstep
  exact apply_follows l.session.close_modest hm hstep hv rfl rfl

theorem beginWait_follows {wait : Wait} (h : l.Follows ts (some (task, .wait wait)) []) :
    (l.beginWait task wait).Follows ts none [] := by
  cases wait with
  | idle => exact awaitRest_follows h
  | flush => exact awaitRest_follows (flushNow_follows h)
  | close =>
      simp only [beginWait]
      split
      · exact endClose_follows (close_follows h)
      · exact gather_follows (close_follows h) _
  | sleep micros => exact sleep_wait_follows h (.time micros)

theorem resumeWait_follows {wait : Wait} (h : l.Follows ts (some (task, .wait wait)) []) :
    (l.resumeWait task wait).Follows ts none [] := by
  cases wait with
  | idle | flush => exact awaitRest_follows h
  | close => exact endClose_follows h
  | sleep micros => exact finish_follows h

/-! ## Turns -/

/-- Its turn begins: the task is no errand any more. -/
theorem Mirrors.take_turn (hm : l.Mirrors none w) {t : Task} (ht : t ∈ l.agenda.tasks) {rest : List Turn}
    (hturns : l.agenda.turns = .task t.id :: rest) :
    (l.onAgenda fun a => { a with turns := rest }).Mirrors (some (t.id, t.work)) (w.without t.id) where
  session := hm.session
  errands := by
    change w.errands.filter (fun e => e.id ≠ t.id) = l.agenda.errands (some t.id)
    rw [hm.errands, Option.map_none, Agenda.errands_some]
  orderly := hm.orderly.next_turn hturns
  present x hx := by
    cases hx
    exact List.mem_map_of_mem ht
  below := hm.below
  tracked := hm.tracked

/-- A task that waits is no errand. -/
theorem Mirrors.take_wait (hm : l.Mirrors (some (task, work)) (w.without task)) {wait : Wait} (hw : work = .wait wait)
    (hall : w.errands = l.agenda.errands none) : l.Mirrors (some (task, .wait wait)) w := by
  subst hw
  have hwait : ∀ t ∈ l.agenda.tasks, t.id = task → ∃ w, t.work = .wait w := fun t ht hi =>
    ⟨wait, hm.orderly.work_of_roster (hm.present _ rfl) ht hi⟩
  exact ⟨hm.session, hall.trans (Agenda.errands_of_wait hwait).symm, hm.orderly, hm.present, hm.below, hm.tracked⟩

theorem takeTurn_follows {t : Task} (hm : l.Mirrors (some (t.id, t.work)) (w.without t.id))
    (hw : History (ts ++ us) w) (hv : w.visits = []) (hall : w.errands = l.agenda.errands none)
    (ht : t ∈ l.agenda.tasks) : (l.takeTurn t).Follows ts none [] := by
  have hstage := hm.orderly.running_stage ht rfl
  cases hwork : t.work with
  | wait wait =>
      have hf : l.Follows ts (some (t.id, .wait wait)) [] := ⟨us, w, hw, hv, hm.take_wait hwork hall⟩
      cases hc : t.cancelled with
      | true => simpa only [takeTurn, hwork, hc] using finish_follows hf
      | false =>
          rcases hstage with hs | hs
          · simpa only [takeTurn, hwork, hc, hs] using beginWait_follows hf
          · simpa only [takeTurn, hwork, hc, hs] using resumeWait_follows hf
  | job job =>
      have he : { id := t.id, job, begun := t.stage ≠ .fresh, cancelled := t.cancelled } ∈ w.errands := by
        rw [hall]
        exact Agenda.mem_errands_of_job ht hwork (by rcases hstage with hs | hs <;> simp [hs])
      cases hc : t.cancelled with
      | true =>
          have hlast := abandon_follows hm hw hv he rfl hc t.stage rfl
          simpa only [takeTurn, hwork, hc] using hlast
      | false =>
          rcases hstage with hs | hs
          · have hfirst := begin_follows hm hw hv hall he rfl (by simp [hs]) hc
            simpa only [takeTurn, hwork, hc, hs] using hfirst
          · have hnext := resume_follows hm hw hv he rfl (by simp [hs]) hc
            simpa only [takeTurn, hwork, hc, hs] using hnext

theorem turn_follows (h : l.Follows ts none []) {m : LiveSession} (ht : l.turn? = some m) :
    m.Follows ts none [] := by
  obtain ⟨us, w, hw, hv, hm⟩ := h
  unfold turn? at ht
  cases hturns : l.agenda.turns with
  | nil => simp [hturns] at ht
  | cons turn rest =>
      simp only [hturns, Option.some.injEq] at ht
      subst ht
      cases turn with
      | report g =>
          have ho := hm.orderly.next_report hturns
          refine ⟨us, w, hw, hv, hm.onAgenda (ho.report g) (Agenda.roster_report ..) rfl ?_⟩
          exact hm.errands.trans (ho.report_errands g).symm
      | task id =>
          obtain ⟨t, ht⟩ := hm.orderly.task_of_due (k := id) (by simp [Agenda.due, hturns, Turn.task?])
          obtain ⟨hmem, rfl⟩ := Agenda.task?_mem ht
          have htask : (l.onAgenda fun a => { a with turns := rest }).agenda.task? t.id = some t := ht
          simp only [htask]
          exact takeTurn_follows (hm.take_turn hmem hturns) hw hv hm.errands hmem

theorem advance_follows (h : l.Follows ts none []) {limit : Option Nat} {m : LiveSession}
    (hm : l.advance? limit = some m) : m.Follows ts none [] := by
  obtain ⟨a, ha, rfl⟩ := Option.map_eq_some_iff.mp hm
  obtain ⟨us, w, hw, hv, hm⟩ := h
  obtain ⟨ho, he⟩ := hm.orderly.advance? ha
  exact ⟨us, w, hw, hv, hm.onAgenda ho (Agenda.roster_advance? ha) rfl (hm.errands.trans he.symm)⟩

end LiveSession
end Formwork
