import Formwork.Proofs.Twins

/-!
Twins stay twins: their edits have one result, the listeners are shown the same and answer alike, and the steps that
jobs take are the same.
-/

namespace Formwork

namespace LiveSession

variable {hidden : List Nat} {l m : LiveSession}

/-! ## What is seen -/

theorem shown_see (l : LiveSession) (s : Sighting) : (l.see s).shown = l.shown ++ { l with sightings := [s] }.shown :=
  List.filterMap_append

theorem Twins.see (h : Twins hidden l m) (s : Sighting) : Twins hidden (l.see s) (m.see s) := by
  have hshown : (m.see s).shown = (l.see s).shown := by
    rw [shown_see, shown_see, h.shown]
    rfl
  exact { h with shown := hshown }

theorem Twins.addMark (h : Twins hidden l m) (recorded : Bool) (stage : Stage) (field : String) (value : Value) :
    Twins hidden (l.addMark recorded stage field value) (m.addMark recorded stage field value) := by
  unfold LiveSession.addMark
  rw [h.now]
  split
  · exact h.see _
  · exact h

/-- A mark is not shown to the listeners. -/
theorem Twins.marked (h : Twins hidden l m) (recorded : Bool) (stage : Stage) (field : String) (value : Value) :
    Twins hidden l (m.addMark recorded stage field value) := by
  unfold LiveSession.addMark
  split
  · have hshown : (m.see (.mark ⟨m.now, stage, field, value⟩)).shown = m.shown := by
      rw [shown_see]
      exact List.append_nil _
    exact { h with shown := hshown.trans h.shown }
  · exact h

/-! ## Edits -/

/-- Edits of twins have one result. -/
def Steady (edit : Editing) : Prop := ∀ {hidden l m}, Twins hidden l m → ∀ id value,
  Twins hidden (edit l id value).1 (edit m id value).1 ∧ (edit l id value).2 = (edit m id value).2

section

variable {edit : Editing} (hedit : Steady edit)

include hedit

theorem Twins.editAll (h : Twins hidden l m) (edits : List (String × Value)) :
    Twins hidden (editAll edit l edits) (editAll edit m edits) := by
  induction edits generalizing l m with
  | nil => exact h
  | cons e edits ih =>
      obtain ⟨hone, hresult⟩ := hedit h e.1 e.2
      rw [LiveSession.editAll, LiveSession.editAll]
      generalize edit l e.1 e.2 = r at hone hresult
      generalize edit m e.1 e.2 = r' at hone hresult
      obtain ⟨l', r⟩ := r
      obtain ⟨m', r'⟩ := r'
      obtain rfl : r = r' := hresult
      cases r with
      | ok state => exact ih hone
      | error fault => exact hone

theorem Twins.notify (h : Twins hidden l m) (state : FieldState) :
    Twins hidden (notify edit l state) (notify edit m state) := by
  unfold LiveSession.notify
  rw [h.listeners]
  generalize l.listeners = listeners
  induction listeners generalizing l m with
  | nil => exact h
  | cons listener listeners ih =>
      have hseen := h.see (.shown l.now listener.name state)
      refine ih ?_
      simp only [LiveSession.tell, h.now]
      exact hseen.editAll hedit _

theorem Twins.shows (h : Twins hidden l m) (shows : List FieldState) :
    Twins hidden ((shows.map Effect.show).foldl (perform edit) l) ((shows.map Effect.show).foldl (perform edit) m) := by
  induction shows generalizing l m with
  | nil => exact h
  | cons state shows ih => exact ih (h.notify hedit state)

theorem Twins.carryOut (h : Twins hidden l m) {step : Session → Stepped} {s' : Session} {cancels : List Nat}
    {superseded : Option Nat} {job? : Option Job} {shows : List FieldState}
    (hs : l.session.Indifferent step s' cancels superseded job? shows) :
    Twins (superseded.toList ++ hidden) (carryOut edit l (step l.session)) (carryOut edit m (step m.session)) := by
  have hs' := hs.heeding m.session.cancelStale
  rw [← h.session] at hs'
  rw [carryOut_tended edit hs, carryOut_tended edit hs']
  exact (h.tended hs).shows hedit shows

end

theorem steady_editTo (depth : Nat) : Steady (editTo depth) := by
  induction depth with
  | zero => exact fun h _ _ => ⟨h, rfl⟩
  | succ depth ih =>
      intro hidden l m h id value
      obtain ⟨s', cancels, job?, shows, hs⟩ := l.session.edit_indifferent id value
      refine ⟨h.carryOut ih hs, ?_⟩
      change (l.session.edit id value).2 = (m.session.edit id value).2
      rw [h.session, Session.edit_heeding]

theorem Twins.edit (h : Twins hidden l m) (id : String) (value : Value) :
    Twins hidden (l.edit id value).1 (m.edit id value).1 ∧ (l.edit id value).2 = (m.edit id value).2 :=
  steady_editTo maxDepth h id value

/-! ## Steps -/

theorem apply_nothing {step : Session → Stepped} (h : step l.session = (l.session, [])) : l.apply step = l := by
  rw [apply, h]
  rfl

/-- A step is taken by both, which may supersede an evaluation. -/
theorem Twins.apply (h : Twins hidden l m) {step : Session → Stepped} (hs : l.session.EitherWay step) :
    ∃ hidden', Twins hidden' (l.apply step) (m.apply step) := by
  obtain ⟨s', cancels, superseded, job?, shows, hs⟩ := hs
  exact ⟨_, h.carryOut (steady_editTo maxDepth) hs⟩

theorem Twins.applyEach (h : Twins hidden l m) {step : String → Session → Stepped}
    (hs : ∀ (s : Session) id, s.EitherWay (step id)) :
    ∃ hidden', Twins hidden' (l.applyEach step) (m.applyEach step) := by
  unfold LiveSession.applyEach
  rw [h.ids_eq]
  generalize l.session.ids = ids
  induction ids generalizing hidden l m with
  | nil => exact ⟨hidden, h⟩
  | cons id ids ih =>
      obtain ⟨hidden', hone⟩ := h.apply (hs l.session id)
      exact ih hone

theorem Twins.flushNow (h : Twins hidden l m) : ∃ hidden', Twins hidden' l.flushNow m.flushNow := by
  obtain ⟨hidden', hbegin⟩ := h.apply l.session.beginFlush_eitherWay
  exact hbegin.applyEach Session.dispatchIfPausing_eitherWay

/-! ## The end of a turn -/

theorem Alike.with_agenda (h : Alike hidden l m) {a b : Agenda} (hab : a.Agree hidden b)
    (ha : a.roster = l.agenda.roster) (hb : b.roster = m.agenda.roster) :
    Alike hidden { l with agenda := a } { m with agenda := b } :=
  ⟨ha ▸ h.left, hb ▸ h.right, hab, h.session, h.evaluator, h.fieldPause, h.formPause, h.listeners, h.shown⟩

theorem Twins.finish (h : Twins hidden l m) (task : Nat) : Twins hidden (l.finish task) (m.finish task) := by
  refine ⟨h.with_agenda (h.agenda.finish task) (Agenda.roster_finish ..) (Agenda.roster_finish ..), ?_⟩
  change (m.agenda.finish task).now = (l.agenda.finish task).now
  rw [Agenda.finish_now, Agenda.finish_now]
  exact h.now

theorem Twins.sleep (h : Twins hidden l m) (task : Nat) (pause : Pause) :
    Twins hidden (l.onAgenda fun a => a.sleep task pause) (m.onAgenda fun a => a.sleep task pause) := by
  refine ⟨h.with_agenda (h.agenda.sleep h.now.symm task pause) (Agenda.roster_sleep ..) (Agenda.roster_sleep ..), ?_⟩
  change (m.agenda.sleep task pause).now = (l.agenda.sleep task pause).now
  rw [Agenda.sleep_now, Agenda.sleep_now]
  exact h.now

/-! ## Jobs -/

theorem Twins.planFor (h : Twins hidden l m) (id : String) (requested : Value) :
    m.planFor id requested = l.planFor id requested := by
  unfold LiveSession.planFor
  rw [h.session, h.evaluator]
  rfl

theorem Twins.answer (h : Twins hidden l m) (task : Nat) (id : String) (token : Nat) (requested : Value) :
    ∃ hidden', Twins hidden' (l.answer task id token requested) (m.answer task id token requested) := by
  unfold LiveSession.answer
  rw [h.planFor]
  have hmark := h.addMark (l.planFor id requested).recorded (l.planFor id requested).answer.endStage id requested
  obtain ⟨hidden', hsettle⟩ := hmark.apply (Session.settle_eitherWay _ task id token requested
    (endingOf (l.planFor id requested).answer))
  exact ⟨hidden', hsettle.finish task⟩

theorem Twins.abandon (h : Twins hidden l m) (task : Nat) (stage : TaskStage) (j : Job) :
    ∃ hidden', Twins hidden' (l.abandon task stage j) (m.abandon task stage j) := by
  cases j with
  | fieldTimer | formTimer => exact ⟨hidden, h.finish task⟩
  | evaluation id token requested =>
      rw [LiveSession.abandon, LiveSession.abandon]
      split
      · exact ⟨hidden, h.finish task⟩
      · unfold LiveSession.interrupt
        rw [h.planFor]
        have hmark := h.addMark (l.planFor id requested).recorded .cancelled id requested
        obtain ⟨hidden', hsettle⟩ := hmark.apply (Session.settle_eitherWay _ task id token requested .cancelled)
        exact ⟨hidden', hsettle.finish task⟩

theorem Twins.begin (h : Twins hidden l m) (task : Nat) (j : Job) :
    ∃ hidden', Twins hidden' (l.begin task j) (m.begin task j) := by
  cases j with
  | fieldTimer id =>
      rw [LiveSession.begin, LiveSession.begin, h.fieldPause]
      exact ⟨hidden, h.sleep task _⟩
  | formTimer =>
      rw [LiveSession.begin, LiveSession.begin, h.formPause]
      exact ⟨hidden, h.sleep task _⟩
  | evaluation id token requested =>
      simp only [LiveSession.begin]
      rw [h.planFor]
      have hmark := h.addMark (l.planFor id requested).recorded .start id requested
      split
      · exact hmark.answer task id token requested
      · exact ⟨hidden, hmark.sleep task _⟩

theorem Twins.resume (h : Twins hidden l m) (task : Nat) (j : Job) :
    ∃ hidden', Twins hidden' (l.resume task j) (m.resume task j) := by
  cases j with
  | fieldTimer id =>
      obtain ⟨hidden', hfired⟩ := h.apply (l.session.fieldTimerFires_eitherWay id)
      exact ⟨hidden', hfired.finish task⟩
  | formTimer =>
      obtain ⟨_, hfired⟩ := h.apply l.session.formTimerFires_eitherWay
      obtain ⟨hidden', heach⟩ := hfired.applyEach Session.dispatchIfValued_eitherWay
      exact ⟨hidden', heach.finish task⟩
  | evaluation id token requested => exact h.answer task id token requested

end LiveSession
end Formwork
