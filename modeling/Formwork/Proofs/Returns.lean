import Formwork.Proofs.InSync
import Formwork.Proofs.LiveRuns
import Formwork.Proofs.Reports

/-!
When those who wait go on: a wait for rest once the session knows of no task that has not ended, a close once all the
tasks have ended that the session knew of when it was closed.
-/

namespace Formwork

open World

namespace Agenda

variable {a b : Agenda} {id k : Nat} {s : TaskStage}

/-! ## Who ends -/

theorem stage?_finish (a : Agenda) (id k : Nat) :
    (a.finish id).stage? k = if k = id then (a.stage? k).map fun _ => .done else a.stage? k := by
  rw [finish_reporting]
  exact stage?_setStage a id .done k

theorem isDone_finish (h : a.isDone k) : (a.finish id).isDone k := by
  refine isDone_iff.mpr fun s hs => ?_
  rw [stage?_finish] at hs
  split at hs
  · obtain ⟨-, -, rfl⟩ := Option.map_eq_some_iff.mp hs
    rfl
  · exact isDone_iff.mp h s hs

theorem ended_setStage (hs : s ≠ .done) (h : (a.setStage id s).stage? k = some .done) : a.stage? k = some .done := by
  rw [stage?_setStage] at h
  split at h
  · obtain ⟨r, -, hr⟩ := Option.map_eq_some_iff.mp h
    exact absurd hr hs
  · exact h

theorem ended_sleep {pause : Pause} (h : (a.sleep id pause).stage? k = some .done) : a.stage? k = some .done := by
  cases pause with
  | none | turn => exact ended_setStage (s := .awake) (by simp) h
  | time micros => exact ended_setStage (s := .asleep) (by simp) h

theorem ended_gather {children : List Nat} (h : (a.gather id children).stage? k = some .done) :
    a.stage? k = some .done := by
  rw [gather_reporting] at h
  exact ended_setStage (by simp) h

theorem ended_report {g : Nat} (h : (a.report g).stage? k = some .done) : a.stage? k = some .done := by
  unfold Agenda.report at h
  split at h
  · exact h
  · simp only at h
    split at h
    · exact ended_setStage (a := { a with gatherings := _ }) (s := .awake) (by simp) h
    · exact h

theorem ended_rings {xs : List Alarm} (h : (xs.foldl Agenda.ring a).stage? k = some .done) :
    a.stage? k = some .done := by
  induction xs generalizing a with
  | nil => exact h
  | cons x xs ih =>
      have hring : (a.setStage x.task .awake).stage? k = some .done := ih (a := a.ring x) h
      exact ended_setStage (by simp) hring

theorem ended_advance? {limit : Option Nat} (hb : a.advance? limit = some b) (h : b.stage? k = some .done) :
    a.stage? k = some .done := by
  unfold Agenda.advance? at hb
  cases hs : a.soonest with
  | nil => simp [hs] at hb
  | cons first rest =>
      simp only [hs, Option.ite_none_right_eq_some, Option.some.injEq] at hb
      obtain ⟨-, rfl⟩ := hb
      exact ended_rings (a := { a with now := max a.now first.due
                                       alarms := rest.dropWhile fun x => x.due = first.due }) h

end Agenda

namespace LiveSession

variable {l m r : LiveSession} {t : Task} {ts : List Transition} {running : Option (Nat × Work)} {visits : List Visit}
  {tasks : List Nat} {k : Nat} {wait : Wait} {j : Job}

theorem Follows.tasks_lt (h : l.Follows ts running visits) (hk : k ∈ l.session.tasks) : k < l.session.nextTask := by
  obtain ⟨us, w, hw, -, hm⟩ := h
  have hlt := hw.sound.tasks_lt (hm.session ▸ hk)
  rwa [hm.session] at hlt

/-- The session was closed when it knew of some tasks. -/
def Closed (l : LiveSession) (tasks : List Nat) : Prop :=
  ∃ pre t, t.event = .close ∧ t.before.session.tasks = tasks ∧ l.Follows (pre ++ [t]) none []

theorem Closed.mono (h : l.Closed tasks) (hf : ∀ {ts}, l.Follows ts none [] → m.Follows ts none []) :
    m.Closed tasks := by
  obtain ⟨pre, t, hc, ht, h⟩ := h
  exact ⟨pre, t, hc, ht, hf h⟩

theorem close_recorded (h : l.Follows ts running []) : ∃ pre t, t.event = .close ∧
    t.before.session.tasks = l.session.tasks ∧ (l.apply Session.close).Follows (pre ++ [t]) running [] := by
  obtain ⟨us, w, hw, hv, hm⟩ := h
  have hstep := hw.step (.close hv)
  rw [hm.session, ← List.append_nil (_ ++ [_])] at hstep
  refine ⟨ts ++ us, ⟨w, .close, l.session.close.2, w.absorb l.session.close⟩, rfl,
    congrArg Session.tasks hm.session, ?_⟩
  exact apply_follows l.session.close_modest hm hstep hv rfl rfl

/-! ## Turns -/

/-- What the turn of a task comes to: the session takes some steps, and then the task ends, sleeps or waits. -/
inductive TurnEnds (l : LiveSession) (t : Task) (r : LiveSession) : Prop
  | ended {m : LiveSession} (hm : l.Adjusts m) (hs : r.session = m.session) (ha : r.agenda = m.agenda.finish t.id)
      (hrest : t.cancelled = false → t.work = .wait .idle ∨ t.work = .wait .flush → m.outstanding = [])
      (hclose : t.cancelled = false → t.work = .wait .close → t.stage = .fresh → r.Closed [])
  | slept {m : LiveSession} (pause : Pause) (hm : l.Adjusts m) (hs : r.session = m.session)
      (ha : r.agenda = m.agenda.sleep t.id pause) (hw : t.work ≠ .wait .close)
  | gathered {m : LiveSession} (children : List Nat) (hm : l.Adjusts m) (hs : r.session = m.session)
      (ha : r.agenda = m.agenda.gather t.id children) (hlt : ∀ k ∈ children, k < m.session.nextTask)
      (hne : children ≠ []) (hclose : t.work = .wait .close → r.Closed children)

theorem TurnEnds.of_job (hw : t.work = .job j) (hm : l.Adjusts m) : l.TurnEnds t (m.finish t.id) :=
  .ended hm rfl rfl (fun _ h => by simp [hw] at h) fun _ h => by simp [hw] at h

theorem addMark_adjusts (l : LiveSession) (recorded : Bool) (stage : Stage) (field : String) (value : Value) :
    l.Adjusts (l.addMark recorded stage field value) := by
  obtain ⟨hs, ha⟩ := l.addMark_same recorded stage field value
  exact .of_same hs ha

theorem answer_turnEnds (hw : t.work = .job j) (hm : l.Adjusts m) (id : String) (token : Nat) (requested : Value) :
    l.TurnEnds t (m.answer t.id id token requested) :=
  .of_job hw ((hm.trans (addMark_adjusts ..)).trans (apply_adjusts (Session.settle_modest ..)))

theorem begin_turnEnds (hw : t.work = .job j) : l.TurnEnds t (l.begin t.id j) := by
  have hclose : t.work ≠ .wait .close := by simp [hw]
  cases j with
  | fieldTimer | formTimer => exact .slept _ (.refl l) rfl rfl hclose
  | evaluation id token requested =>
      simp only [begin]
      split
      · exact answer_turnEnds hw (addMark_adjusts ..) id token requested
      · exact .slept _ (addMark_adjusts ..) rfl rfl hclose

theorem resume_turnEnds (hw : t.work = .job j) : l.TurnEnds t (l.resume t.id j) := by
  cases j with
  | fieldTimer id => exact .of_job hw (apply_adjusts (l.session.fieldTimerFires_modest id))
  | formTimer =>
      exact .of_job hw ((apply_adjusts l.session.formTimerFires_modest).trans (applyEach_adjusts _ .valued))
  | evaluation id token requested => exact answer_turnEnds hw (.refl l) id token requested

theorem abandon_turnEnds (hw : t.work = .job j) : l.TurnEnds t (l.abandon t.id t.stage j) := by
  cases j with
  | fieldTimer | formTimer => exact .of_job hw (.refl l)
  | evaluation id token requested =>
      rw [abandon]
      split
      · exact .of_job hw (.refl l)
      · exact .of_job hw ((addMark_adjusts ..).trans (apply_adjusts (Session.settle_modest ..)))

theorem awaitRest_turnEnds (hw : t.work = .wait .idle ∨ t.work = .wait .flush) (hf : m.Follows ts running visits)
    (hm : l.Adjusts m) : l.TurnEnds t (m.awaitRest t.id) := by
  have hclose : t.work ≠ .wait .close := by rcases hw with hw | hw <;> simp [hw]
  simp only [awaitRest]
  split
  · next hrest => exact .ended hm rfl rfl (fun _ _ => List.isEmpty_iff.mp hrest) fun _ h => absurd h hclose
  · next hrest =>
      exact .gathered _ hm rfl rfl (fun k hk => hf.tasks_lt (List.mem_of_mem_filter hk))
        (fun h => hrest (List.isEmpty_iff.mpr h)) fun h => absurd h hclose

theorem beginWait_turnEnds (hw : t.work = .wait wait) (hf : l.Follows ts (some (t.id, .wait wait)) []) :
    l.TurnEnds t (l.beginWait t.id wait) := by
  cases wait with
  | idle => exact awaitRest_turnEnds (.inl hw) hf (.refl l)
  | flush => exact awaitRest_turnEnds (.inr hw) (flushNow_follows hf) l.flushNow_adjusts
  | sleep micros => exact .slept (.time micros) (.refl l) rfl rfl (by simp [hw])
  | close =>
      obtain ⟨pre, x, hc, htasks, hclosed⟩ := close_recorded hf
      have hm : l.Adjusts (l.apply Session.close) := apply_adjusts l.session.close_modest
      simp only [beginWait]
      split
      · next hnone =>
          refine .ended hm rfl rfl (fun _ h => by simp [hw] at h) fun _ _ _ => ?_
          exact ⟨pre, x, hc, htasks.trans (List.isEmpty_iff.mp hnone), endClose_follows hclosed⟩
      · next hsome =>
          refine .gathered _ hm rfl rfl (fun k hk => Nat.lt_of_lt_of_le (hf.tasks_lt hk) hm.next)
            (fun h => hsome (List.isEmpty_iff.mpr h)) fun _ => ?_
          exact ⟨pre, x, hc, htasks, gather_follows hclosed _⟩

theorem resumeWait_turnEnds (hw : t.work = .wait wait) (hf : l.Follows ts (some (t.id, .wait wait)) [])
    (hs : t.stage ≠ .fresh) : l.TurnEnds t (l.resumeWait t.id wait) := by
  cases wait with
  | idle => exact awaitRest_turnEnds (.inl hw) hf (.refl l)
  | flush => exact awaitRest_turnEnds (.inr hw) hf (.refl l)
  | close =>
      exact .ended (m := { l with listeners := [] }) (.of_same rfl rfl) rfl rfl (fun _ h => by simp [hw] at h)
        fun _ _ h => absurd h hs
  | sleep micros => exact .ended (.refl l) rfl rfl (fun _ h => by simp [hw] at h) fun _ h => by simp [hw] at h

theorem takeTurn_turnEnds (hf : ∀ wait, t.work = .wait wait → l.Follows [] (some (t.id, .wait wait)) []) :
    l.TurnEnds t (l.takeTurn t) := by
  unfold takeTurn
  split
  · next hw _ => exact abandon_turnEnds hw
  · next hw _ _ => exact begin_turnEnds hw
  · next hw _ _ => exact resume_turnEnds hw
  · next hc => exact .ended (.refl l) rfl rfl (fun h => by simp [hc] at h) fun h => by simp [hc] at h
  · next hw _ _ => exact beginWait_turnEnds hw (hf _ hw)
  · next hw _ hn => exact resumeWait_turnEnds hw (hf _ hw) hn

section

variable (ho : l.agenda.Orderly (some t.id)) (ht : t ∈ l.agenda.tasks)

include ho ht

/-- A wait with the number of the task is that task, as long as it is not cancelled. -/
theorem Adjusts.eq_of_wait (hm : l.Adjusts m) {x : Task} (hx : x ∈ m.agenda.tasks) (hi : x.id = t.id)
    (hw : x.work = .wait wait) (hc : x.cancelled = false) : x = t :=
  List.inj_on_of_nodup_map ho.distinct (hm.agenda.waits x hx wait hw hc) ht hi

theorem TurnEnds.attends (h : l.TurnEnds t r) (ha : l.agenda.Attends r.Closed l.session.nextTask) :
    r.agenda.Attends r.Closed r.session.nextTask := by
  have before {m : LiveSession} (hm : l.Adjusts m) : m.agenda.Attends r.Closed m.session.nextTask ∧
      m.agenda.isDone t.id = false ∧ m.agenda.gatherings.map (·.id) = List.range m.agenda.gatherings.length := by
    refine ⟨(ha.adjusts hm.agenda).mono hm.next fun _ h => h, hm.agenda.going t.id ?_, ?_⟩
    · rw [Agenda.isDone_of_stage (ho.stage_of_mem ht)]
      rcases ho.running_stage ht rfl with hs | hs <;> simp [hs]
    · rw [hm.agenda.gatherings]
      exact ho.numbered
  cases h with
  | ended hm hs hagenda =>
      obtain ⟨ha, hopen, hnum⟩ := before hm
      rw [hagenda, hs]
      exact ha.finish hopen hnum
  | slept pause hm hs hagenda hw =>
      obtain ⟨ha, hopen, -⟩ := before hm
      rw [hagenda, hs]
      refine ha.sleep hopen (fun x hx hi hc hwork => hw ?_) pause
      rw [← hm.eq_of_wait ho ht hx hi hwork hc, hwork]
  | gathered children hm hs hagenda hlt hne hclose =>
      obtain ⟨ha, hopen, hnum⟩ := before hm
      rw [hagenda, hs]
      refine ha.gather hopen hnum hlt fun ⟨x, hx, hi, hwork, hc⟩ => hclose ?_
      rw [← hm.eq_of_wait ho ht hx hi hwork hc, hwork]

end

/-- A call that waits returns: its task has ended, and was not cancelled. -/
structure Returns (l m : LiveSession) (task : Nat) (wait : Wait) : Prop where
  before : l.agenda.stage? task ≠ some .done
  after : ∃ x, m.agenda.task? task = some x ∧ x.work = .wait wait ∧ x.cancelled = false ∧ x.stage = .done

/-- What a caller may rely on when its wait is over. -/
structure Over (m : LiveSession) (wait : Wait) : Prop where
  rest : wait = .idle ∨ wait = .flush → m.outstanding = []
  closed : wait = .close → ∃ tasks, m.Closed tasks ∧ ∀ k ∈ tasks, m.agenda.isDone k

theorem TurnEnds.over (h : l.TurnEnds t r) (ho : l.agenda.Orderly (some t.id)) (ht : t ∈ l.agenda.tasks)
    (ha : l.agenda.Attends r.Closed l.session.nextTask) {task : Nat} (hr : l.Returns r task wait) : r.Over wait := by
  obtain ⟨hbefore, x, hx, hw, hc, hdone⟩ := hr
  have hstage : r.agenda.stage? task = some .done := by rw [Agenda.stage?, hx, Option.map_some, hdone]
  cases h with
  | slept pause hm _ hagenda =>
      rw [hagenda] at hstage
      exact absurd (hm.agenda.ended task (Agenda.ended_sleep hstage)) hbefore
  | gathered children hm _ hagenda =>
      rw [hagenda] at hstage
      exact absurd (hm.agenda.ended task (Agenda.ended_gather hstage)) hbefore
  | @ended m hm hs hagenda hrest hclose =>
      have hfinish (k : Nat) (hk : m.agenda.isDone k) : r.agenda.isDone k := hagenda ▸ Agenda.isDone_finish hk
      -- the task that has its turn is the one that waited
      have htask : task = t.id := by
        by_contra hne
        rw [hagenda, Agenda.stage?_finish, if_neg hne] at hstage
        exact hbefore (hm.agenda.ended task hstage)
      subst htask
      obtain ⟨hmem, hi⟩ := Agenda.task?_mem hx
      rw [hagenda, Agenda.finish_tasks] at hmem
      obtain ⟨u, hu, rfl⟩ := List.mem_map.mp hmem
      by_cases hid : u.id = t.id
      · rw [if_pos hid] at hw hc
        obtain rfl := hm.eq_of_wait ho ht hu hid hw hc
        refine ⟨fun hwait => ?_, fun hwait => ?_⟩
        · have hnone := List.filter_eq_nil_iff.mp (hrest hc (hwait.imp (fun h => by rw [hw, h]) fun h => by rw [hw, h]))
          refine List.filter_eq_nil_iff.mpr fun k hk => ?_
          have hk := hnone k (hs ▸ hk)
          simp only [Bool.not_eq_true, Bool.not_eq_false'] at hk ⊢
          exact hfinish k hk
        · subst hwait
          cases ha.closing u ht hw hc with
          | fresh hfresh => exact ⟨[], hclose hc hw hfresh, by simp⟩
          | awake tasks _ hP hd =>
              exact ⟨tasks, hP, fun k hk => hfinish k (hm.agenda.done k (hd k hk).1 (hd k hk).2)⟩
          | waiting _ _ hstage | done hstage =>
              rcases ho.running_stage ht rfl with h | h <;> rw [hstage] at h <;> cases h
      · rw [if_neg hid] at hi
        exact absurd hi hid

/-! ## Whatever is done with a live session -/

/-- What can be done with a live session, and what happens by itself. -/
inductive Moves (l : LiveSession) : LiveSession → Prop
  | edit (id : String) (value : Value) : Moves l (l.edit id value).1
  | validateAll : Moves l l.validateAll.1
  | enter (wait : Wait) : Moves l (l.enter wait)
  | startWait (wait : Wait) : Moves l (l.startWait wait)
  | addListener (listener : Listener) : Moves l (l.addListener listener)
  | removeListener (name : String) : Moves l (l.removeListener name).1
  | onward {m : LiveSession} (h : l.Onward m) : Moves l m

/-- The live sessions that come about. -/
inductive Lived : LiveSession → Prop
  | opened {s : Session} (hs : s.Opened) (evaluator : Evaluator) (fieldPause formPause : Pause)
      (listeners : List Listener) : Lived { session := s, evaluator, fieldPause, formPause, listeners }
  | moves {l m : LiveSession} (h : Lived l) (hm : l.Moves m) : Lived m

theorem Lived.onward (h : l.Lived) (hm : l.Onward m) : m.Lived := h.moves (.onward hm)

theorem Reachable.lived (h : l.Reachable) : l.Lived := by
  induction h with
  | opened hs evaluator fieldPause formPause listeners => exact .opened hs evaluator fieldPause formPause listeners
  | edit _ id value ih => exact ih.moves (.edit id value)
  | validateAll _ ih => exact ih.moves .validateAll
  | startWait _ wait ih => exact ih.moves (.startWait wait)
  | await _ fuel wait ih =>
      exact onward_drain Lived.onward (onward_runToEnd Lived.onward (ih.moves (.enter wait)) _ fuel) fuel
  | wait _ fuel micros ih =>
      exact onward_drain Lived.onward (onward_runUntil Lived.onward (onward_drain Lived.onward ih fuel) _ fuel) fuel
  | addListener _ listener ih => exact ih.moves (.addListener listener)
  | removeListener _ name ih => exact ih.moves (.removeListener name)

theorem removeListener_same (l : LiveSession) (name : String) :
    (l.removeListener name).1.session = l.session ∧ (l.removeListener name).1.agenda = l.agenda := by
  unfold removeListener
  split <;> exact ⟨rfl, rfl⟩

theorem Moves.follows (h : l.Moves m) (hf : l.Follows ts none []) : m.Follows ts none [] := by
  cases h with
  | edit id value => exact edit_follows hf id value
  | validateAll => exact validateAll_follows hf
  | enter wait => exact beginWait_follows (called_follows hf wait)
  | startWait wait => exact startWait_follows hf wait
  | addListener listener => exact hf.congr rfl rfl
  | removeListener name =>
      obtain ⟨hs, ha⟩ := l.removeListener_same name
      exact hf.congr hs ha
  | onward h => exact h.follows hf

/-- Nobody waits in vain or too short, and the session is that of a history. -/
structure Attentive (l : LiveSession) : Prop where
  follows : l.Follows [] none []
  attends : l.agenda.Attends l.Closed l.session.nextTask

theorem Attentive.adjusts (hl : l.Attentive) (h : l.Adjusts m) : m.agenda.Attends l.Closed m.session.nextTask :=
  (hl.attends.adjusts h.agenda).mono h.next fun _ h => h

/-- A move that gives a task its turn. -/
structure TurnOf (l : LiveSession) (t : Task) (m : LiveSession) (k : LiveSession) : Prop where
  ended : ∀ i, k.agenda.stage? i = some .done → l.agenda.stage? i = some .done
  orderly : k.agenda.Orderly (some t.id)
  present : t ∈ k.agenda.tasks
  attends : k.agenda.Attends l.Closed k.session.nextTask
  turned : k.TurnEnds t m

/-- A move that ends nobody. -/
structure Harmless (l m : LiveSession) : Prop where
  ended : ∀ i, m.agenda.stage? i = some .done → l.agenda.stage? i = some .done
  attends : m.agenda.Attends l.Closed m.session.nextTask

theorem Attentive.harmless (hl : l.Attentive) (h : l.Adjusts m) : l.Harmless m := ⟨h.agenda.ended, hl.adjusts h⟩

theorem ended_added (l : LiveSession) (wait : Wait) {i : Nat} (h : (l.called wait).agenda.stage? i = some .done) :
    l.agenda.stage? i = some .done := by
  rw [called, Agenda.stage?_append] at h
  cases hs : l.agenda.stage? i with
  | some s => rwa [hs] at h
  | none => simp [hs] at h

theorem Attentive.turn (hl : l.Attentive) (h : l.turn? = some m) : (∃ k t, l.TurnOf t m k) ∨ l.Harmless m := by
  obtain ⟨us, w, hw, hv, hm⟩ := hl.follows
  unfold turn? at h
  cases hturns : l.agenda.turns with
  | nil => simp [hturns] at h
  | cons turn rest =>
      simp only [hturns, Option.some.injEq] at h
      subst h
      cases turn with
      | report g =>
          exact .inr ⟨fun i hi => Agenda.ended_report (a := { l.agenda with turns := rest }) hi,
            hl.attends.report hm.orderly hturns⟩
      | task id =>
          obtain ⟨t, ht⟩ := hm.orderly.task_of_due (k := id) (by simp [Agenda.due, hturns, Turn.task?])
          obtain ⟨hmem, rfl⟩ := Agenda.task?_mem ht
          have htask : (l.onAgenda fun a => { a with turns := rest }).agenda.task? t.id = some t := ht
          simp only [htask]
          have hattends : ({ l.agenda with turns := rest } : Agenda).Attends l.Closed l.session.nextTask :=
            hl.attends.adjusts (.of_tasks rfl rfl fun g => by simp [hturns])
          refine .inl ⟨l.onAgenda fun a => { a with turns := rest }, t, fun i hi => hi, hm.orderly.next_turn hturns,
            hmem, hattends, takeTurn_turnEnds fun wait hwork => ?_⟩
          exact ⟨us, w, hw, hv, (hm.take_turn hmem hturns).take_wait hwork hm.errands⟩

/-- A task has its turn, or nobody ends. -/
theorem Moves.cases (h : l.Moves m) (hl : l.Attentive) : (∃ k t, l.TurnOf t m k) ∨ l.Harmless m := by
  cases h with
  | edit id value => exact .inr (hl.harmless (l.edit_adjusts id value))
  | validateAll => exact .inr (hl.harmless l.validateAll_adjusts)
  | addListener listener => exact .inr (hl.harmless (.of_same rfl rfl))
  | removeListener name =>
      obtain ⟨hs, ha⟩ := l.removeListener_same name
      exact .inr (hl.harmless (.of_same hs ha))
  | startWait wait =>
      exact .inr ⟨fun i hi => l.ended_added wait hi, (hl.attends.add wait).append_task _⟩
  | enter wait =>
      have hf := called_follows hl.follows wait
      exact .inl ⟨l.called wait, { id := l.session.nextTask, work := .wait wait }, fun i hi => l.ended_added wait hi,
        hf.orderly, List.mem_append_right _ (List.mem_singleton_self _), hl.attends.add wait,
        beginWait_turnEnds rfl hf⟩
  | onward h =>
      cases h with
      | turn h => exact hl.turn h
      | alarms _ h =>
          obtain ⟨a, ha, rfl⟩ := Option.map_eq_some_iff.mp h
          exact .inr ⟨fun i hi => Agenda.ended_advance? ha hi, hl.attends.advance? hl.follows.orderly ha⟩
      | clock time =>
          exact .inr ⟨fun i hi => hi, hl.attends.adjusts (.of_tasks rfl rfl fun _ => rfl)⟩
      | evaluator e => exact .inr (hl.harmless (.of_same rfl rfl))

theorem Attentive.moves (hl : l.Attentive) (h : l.Moves m) : m.Attentive := by
  have closed {tasks : List Nat} (hc : l.Closed tasks) : m.Closed tasks := hc.mono h.follows
  refine ⟨h.follows hl.follows, ?_⟩
  rcases h.cases hl with ⟨k, t, hk⟩ | hm
  · exact hk.turned.attends hk.orderly hk.present (hk.attends.mono (Nat.le_refl _) fun _ => closed)
  · exact hm.attends.mono (Nat.le_refl _) fun _ => closed

theorem Lived.attentive (h : l.Lived) : l.Attentive := by
  induction h with
  | opened hs evaluator fieldPause formPause listeners =>
      exact ⟨opened_follows hs rfl rfl, by simp, by simp, by simp, by simp⟩
  | moves _ hm ih => exact ih.moves hm

/-- Whenever a call that waits returns, its wait is over. -/
theorem Lived.over (h : l.Lived) (hm : l.Moves m) {task : Nat} (hr : l.Returns m task wait) : m.Over wait := by
  have hl := h.attentive
  rcases hm.cases hl with ⟨k, t, hk⟩ | hquiet
  · refine hk.turned.over hk.orderly hk.present (hk.attends.mono (Nat.le_refl _) fun _ hc => hc.mono hm.follows)
      ⟨fun hdone => hr.before (hk.ended _ hdone), hr.after⟩
  · obtain ⟨x, hx, -, -, hdone⟩ := hr.after
    exact absurd (hquiet.ended task (by rw [Agenda.stage?, hx, Option.map_some, hdone])) hr.before

end LiveSession
end Formwork
