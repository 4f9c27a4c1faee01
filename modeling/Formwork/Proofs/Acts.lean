import Formwork.Proofs.LiveTurns
import Formwork.Proofs.Telling

/-!
What a turn is made of: steps of the session, marks, and changes of the agenda that leave alone which tasks there are.
-/

namespace Formwork

namespace Agenda

variable {P : Work → Prop} {a b : Agenda} {k : Nat}

/-- Every task does work of a kind. -/
def Only (P : Work → Prop) (a : Agenda) : Prop := ∀ x ∈ a.roster, P x.2

theorem Only.of_roster (h : a.Only P) (hr : b.roster = a.roster) : b.Only P := fun x hx => h x (hr ▸ hx)

theorem Only.mem (h : a.Only P) {t : Task} (ht : t ∈ a.tasks) : P t.work := h _ (List.mem_map_of_mem ht)

theorem Only.start (h : a.Only P) {work : Work} (hw : P work) (id : Nat) : (a.start id work).Only P := by
  intro x hx
  rw [roster_start] at hx
  rcases List.mem_append.mp hx with hx | hx
  · exact h x hx
  · rw [List.mem_singleton.mp hx]
    exact hw

theorem Only.putTask (h : a.Only P) {t : Task} (ht : P t.work) : (a.putTask t).Only P := by
  intro x hx
  obtain ⟨u, hu, rfl⟩ := List.mem_map.mp hx
  obtain ⟨v, hv, rfl⟩ := List.mem_map.mp hu
  split
  · exact ht
  · exact h.mem hv

theorem Only.cancelSimple (h : a.Only P) (k : Nat) : (a.cancelSimple k).Only P := by
  unfold Agenda.cancelSimple
  split
  · exact h
  · next t ht =>
      have hwork : P t.work := h.mem (task?_mem ht).1
      split
      · exact h.putTask hwork
      · exact h.putTask hwork
      · exact h.putTask hwork
      · exact h
      · exact h

theorem Only.cancel (h : a.Only P) (k : Nat) : (a.cancel k).Only P := by
  have simple : ∀ (ks : List Nat) {b : Agenda}, b.Only P → (ks.foldl Agenda.cancelSimple b).Only P := by
    intro ks
    induction ks with
    | nil => exact fun h => h
    | cons k ks ih => exact fun h => ih (h.cancelSimple k)
  unfold Agenda.cancel
  split
  · exact h
  · next t ht =>
      have hwork : P t.work := h.mem (task?_mem ht).1
      split
      · exact simple _ (h.putTask hwork)
      · exact h.cancelSimple k

theorem Only.heeds (h : a.Only P) {effects : List Effect}
    (hj : ∀ {task j}, .start task j ∈ effects → P (.job j)) : (effects.foldl heed a).Only P := by
  induction effects generalizing a with
  | nil => exact h
  | cons e effects ih =>
      refine ih ?_ fun hm => hj (List.mem_cons_of_mem _ hm)
      cases e with
      | start task job => exact h.start (hj (List.mem_cons_self ..)) task
      | cancel task => exact h.cancel task
      | «show» state => exact h

end Agenda

namespace Session

/-- The steps that the session takes when it is the turn of a task. -/
inductive Inner : (Session → Stepped) → Prop
  | fieldTimer (id : String) : Inner fun s => s.fieldTimerFires id
  | formTimer : Inner Session.formTimerFires
  | flush : Inner Session.beginFlush
  | visit (v : Visit) : Inner v.step
  | settle (task : Nat) (id : String) (token : Nat) (requested : Value) (ending : Ending) :
      Inner fun s => s.settle task id token requested ending

/-- It starts nothing but evaluations. -/
theorem Inner.light {step : Session → Stepped} (h : Inner step) {s : Session} {task : Nat} {j : Job}
    (hj : .start task j ∈ (step s).2) : j.Light := by
  cases h with
  | fieldTimer id => exact fieldTimerFires_light hj
  | formTimer => cases hj
  | flush => simp [beginFlush] at hj
  | visit v => exact v.light hj
  | settle k id token requested ending =>
      obtain ⟨shows, he⟩ := s.settle_shows k id token requested ending
      simp [he] at hj

theorem Inner.alike {step : Session → Stepped} (h : Inner step) (s : Session) : s.Alike (step s).1 := by
  cases h with
  | fieldTimer id => exact s.fieldTimerFires_alike id
  | formTimer | flush => exact ⟨rfl, rfl, rfl, rfl, fun h => h⟩
  | visit v => exact v.step_alike s
  | settle task id token requested ending => exact s.settle_alike task id token requested ending

end Session

namespace LiveSession

variable {l m n : LiveSession} {t : Task} {w : Wait} {P : Work → Prop}

inductive Acts (l : LiveSession) : LiveSession → Prop
  | nothing : Acts l l
  | mark {m : LiveSession} (h : Acts l m) (recorded : Bool) (stage : Stage) (field : String) (value : Value) :
      Acts l (m.addMark recorded stage field value)
  | agenda {m : LiveSession} (h : Acts l m) (f : Agenda → Agenda) (hr : (f m.agenda).roster = m.agenda.roster) :
      Acts l (m.onAgenda f)
  | step {m : LiveSession} (h : Acts l m) {step : Session → Stepped} (hs : Session.Inner step) : Acts l (m.apply step)

namespace Acts

theorem trans (h : l.Acts m) (h' : m.Acts n) : l.Acts n := by
  induction h' with
  | nothing => exact h
  | mark _ recorded stage field value ih => exact ih.mark recorded stage field value
  | agenda _ f hr ih => exact ih.agenda f hr
  | step _ hs ih => exact ih.step hs

theorem finish (h : l.Acts m) (k : Nat) : l.Acts (m.finish k) := h.agenda _ (Agenda.roster_finish ..)

theorem sleep (h : l.Acts m) (k : Nat) (pause : Pause) : l.Acts (m.onAgenda fun a => a.sleep k pause) :=
  h.agenda _ (Agenda.roster_sleep ..)

theorem visits (h : l.Acts m) (f : String → Visit) : l.Acts (m.applyEach fun id => (f id).step) := by
  have key : ∀ (ids : List String) {m : LiveSession}, l.Acts m →
      l.Acts (ids.foldl (fun m id => m.apply (f id).step) m) := by
    intro ids
    induction ids with
    | nil => exact fun h => h
    | cons id ids ih => exact fun h => ih (h.step (.visit (f id)))
  exact key m.session.ids h

theorem awaitRest (h : l.Acts m) (k : Nat) : l.Acts (m.awaitRest k) := by
  simp only [LiveSession.awaitRest]
  split
  · exact h.finish k
  · exact h.agenda _ (Agenda.roster_gather ..)

theorem recordAll (h : l.Acts m) (outcomes : List (String × Outcome)) : l.Acts (m.recordAll outcomes) := by
  induction outcomes generalizing m with
  | nil => exact h
  | cons o outcomes ih => exact ih (h.step (.visit (.outcome o.1 o.2)))

end Acts

theorem answer_acts (l : LiveSession) (task : Nat) (id : String) (token : Nat) (requested : Value) :
    l.Acts (l.answer task id token requested) :=
  ((Acts.nothing.mark ..).step (.settle ..)).finish task

theorem begin_acts (l : LiveSession) (task : Nat) (j : Job) : l.Acts (l.begin task j) := by
  cases j with
  | fieldTimer | formTimer => exact Acts.nothing.sleep task _
  | evaluation id token requested =>
      have hmark : l.Acts (l.addMark (l.planFor id requested).recorded .start id requested) := Acts.nothing.mark ..
      simp only [begin]
      split
      · exact hmark.trans (answer_acts ..)
      · exact hmark.sleep task _

theorem resume_acts (l : LiveSession) (task : Nat) (j : Job) : l.Acts (l.resume task j) := by
  cases j with
  | fieldTimer id => exact (Acts.nothing.step (.fieldTimer id)).finish task
  | formTimer => exact ((Acts.nothing.step .formTimer).visits .valued).finish task
  | evaluation id token requested => exact l.answer_acts task id token requested

theorem abandon_acts (l : LiveSession) (task : Nat) (stage : TaskStage) (j : Job) : l.Acts (l.abandon task stage j) := by
  cases j with
  | fieldTimer | formTimer => exact Acts.nothing.finish task
  | evaluation id token requested =>
      rw [abandon]
      split
      · exact Acts.nothing.finish task
      · exact ((Acts.nothing.mark ..).step (.settle ..)).finish task

theorem beginWait_acts (l : LiveSession) (task : Nat) (hw : w ≠ .close) : l.Acts (l.beginWait task w) := by
  cases w with
  | idle => exact Acts.nothing.awaitRest task
  | flush => exact ((Acts.nothing.step .flush).visits .pausing).awaitRest task
  | close => exact absurd rfl hw
  | sleep micros => exact Acts.nothing.sleep task _

theorem resumeWait_acts (l : LiveSession) (task : Nat) (hw : w ≠ .close) : l.Acts (l.resumeWait task w) := by
  cases w with
  | idle | flush => exact Acts.nothing.awaitRest task
  | close => exact absurd rfl hw
  | sleep micros => exact Acts.nothing.finish task

theorem takeTurn_acts (l : LiveSession) (t : Task) (hw : t.work ≠ .wait .close) : l.Acts (l.takeTurn t) := by
  unfold takeTurn
  split
  · exact l.abandon_acts ..
  · exact l.begin_acts ..
  · exact l.resume_acts ..
  · exact Acts.nothing.finish _
  · next w hwork _ _ => exact l.beginWait_acts _ fun he => hw (he ▸ hwork)
  · next w hwork _ _ => exact l.resumeWait_acts _ fun he => hw (he ▸ hwork)

/-- A turn is made of such acts, unless a call to close waits. -/
theorem turn_acts (ho : l.agenda.Only (· ≠ .wait .close)) (h : l.turn? = some m) : l.Acts m := by
  unfold turn? at h
  cases hturns : l.agenda.turns with
  | nil => simp [hturns] at h
  | cons turn rest =>
      simp only [hturns, Option.some.injEq] at h
      subst h
      have hpop : l.Acts (l.onAgenda fun a => { a with turns := rest }) := Acts.nothing.agenda _ rfl
      cases turn with
      | report g => exact hpop.agenda _ (Agenda.roster_report ..)
      | task id =>
          simp only
          cases ht : (l.onAgenda fun a => { a with turns := rest }).agenda.task? id with
          | none => exact hpop
          | some t => exact hpop.trans (takeTurn_acts _ t (ho.mem (Agenda.task?_mem ht).1))

/-- Another state of the same live session. -/
structure Same (l m : LiveSession) : Prop where
  alike : l.session.Alike m.session
  fieldPause : m.fieldPause = l.fieldPause
  formPause : m.formPause = l.formPause
  listeners : m.listeners = l.listeners

theorem Same.refl (l : LiveSession) : l.Same l := ⟨.refl l.session, rfl, rfl, rfl⟩

theorem Same.trans (h : l.Same m) (h' : m.Same n) : l.Same n :=
  ⟨h.alike.trans h'.alike, h'.fieldPause.trans h.fieldPause, h'.formPause.trans h.formPause,
    h'.listeners.trans h.listeners⟩

theorem Same.calm (h : l.Same m) (hc : l.Calm) : m.Calm := fun x hx => hc x (h.listeners ▸ hx)

theorem Acts.same (h : l.Acts m) (hc : l.Calm) : l.Same m := by
  induction h with
  | nothing => exact .refl l
  | mark _ recorded stage field value ih =>
      unfold addMark
      split
      · exact ⟨ih.alike, ih.fieldPause, ih.formPause, ih.listeners⟩
      · exact ih
  | agenda _ f hr ih => exact ⟨ih.alike, ih.fieldPause, ih.formPause, ih.listeners⟩
  | @step m _ step hs ih =>
      rw [(ih.calm hc).apply_eq]
      exact ih.trans ⟨hs.alike m.session, rfl, rfl, rfl⟩

theorem Acts.calm (h : l.Acts m) (hc : l.Calm) : m.Calm := (h.same hc).calm hc

/-- The tasks remain of a kind to which evaluations belong. -/
theorem Acts.only (h : l.Acts m) (hc : l.Calm) (ho : l.agenda.Only P)
    (hP : ∀ id token requested, P (.job (.evaluation id token requested))) : m.agenda.Only P := by
  induction h with
  | nothing => exact ho
  | @mark m _ recorded stage field value ih =>
      rw [(m.addMark_same recorded stage field value).2]
      exact ih
  | agenda _ f hr ih => exact ih.of_roster hr
  | @step m h step hs ih =>
      rw [(h.calm hc).apply_eq]
      refine ih.heeds fun {task j} hj => ?_
      cases j with
      | evaluation id token requested => exact hP id token requested
      | fieldTimer | formTimer => exact (hs.light hj).elim

end LiveSession
end Formwork
