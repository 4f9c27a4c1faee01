import Formwork.Proofs.Acts
import Formwork.Proofs.TwinSteps

/-!
The turn of a job, when the listeners only listen: one step of the session, and then the job ends or pauses. Marks are
left out of account.
-/

namespace Formwork

namespace Agenda

/-- A job ends or pauses. -/
def endTurn (a : Agenda) (id : Nat) : Option Pause → Agenda
  | none => a.finish id
  | some pause => a.sleep id pause

theorem roster_endTurn (a : Agenda) (id : Nat) (pause? : Option Pause) : (a.endTurn id pause?).roster = a.roster := by
  cases pause? with
  | none => exact roster_finish ..
  | some pause => exact roster_sleep ..

theorem endTurn_now (a : Agenda) (id : Nat) (pause? : Option Pause) : (a.endTurn id pause?).now = a.now := by
  cases pause? with
  | none => exact finish_now ..
  | some pause => exact sleep_now ..

end Agenda

namespace LiveSession

variable {l m n : LiveSession} {r : Stepped} {f : Agenda → Agenda} {t : Task} {j : Job} {P : Work → Prop}

/-- What the turn of a job comes to, but for the end of the pause after which all fields are dispatched. -/
def turnOf (l : LiveSession) (t : Task) : Job → Stepped × Option Pause
  | .fieldTimer id =>
      if t.cancelled then ((l.session, []), none)
      else if t.stage = .fresh then ((l.session, []), some l.fieldPause)
      else (l.session.fieldTimerFires id, none)
  | .formTimer => ((l.session, []), if t.cancelled then none else some l.formPause)
  | .evaluation id token requested =>
      let plan := l.planFor id requested
      if t.stage = .fresh then
        if t.cancelled then ((l.session, []), none)
        else if plan.pause = .none then (l.session.settle t.id id token requested (endingOf plan.answer), none)
        else ((l.session, []), some plan.pause)
      else
        (l.session.settle t.id id token requested (if t.cancelled then .cancelled else endingOf plan.answer), none)

/-- The session takes no step, or the pause of a field is over, or an evaluation ends. -/
theorem turnOf_cases (l : LiveSession) (t : Task) (j : Job) : (l.turnOf t j).1 = (l.session, []) ∨
    (∃ id, j = .fieldTimer id ∧ (l.turnOf t j).1 = l.session.fieldTimerFires id) ∨
      ∃ id token requested ending, j = .evaluation id token requested ∧
        (l.turnOf t j).1 = l.session.settle t.id id token requested ending := by
  cases j with
  | formTimer => exact .inl rfl
  | fieldTimer id =>
      simp only [turnOf]
      split
      · exact .inl rfl
      · split
        · exact .inl rfl
        · exact .inr (.inl ⟨id, rfl, rfl⟩)
  | evaluation id token requested =>
      simp only [turnOf]
      split
      · split
        · exact .inl rfl
        · split
          · exact .inr (.inr ⟨id, token, requested, _, rfl, rfl⟩)
          · exact .inl rfl
      · exact .inr (.inr ⟨id, token, requested, _, rfl, rfl⟩)

theorem turnOf_modest (l : LiveSession) (t : Task) (j : Job) : l.session.Modest (l.turnOf t j).1 := by
  rcases l.turnOf_cases t j with h | ⟨id, -, h⟩ | ⟨id, token, requested, ending, -, h⟩
  · exact h ▸ l.session.modest_nothing
  · exact h ▸ l.session.fieldTimerFires_modest id
  · exact h ▸ l.session.settle_modest ..

/-- What the listeners see of a state that is shown to them. -/
def audience (l : LiveSession) (state : FieldState) : List (Nat × String × FieldState) :=
  l.listeners.map fun x => (l.now, x.name, state)

/-- A step of the session is carried out, and then something is done to the agenda. -/
structure Carried (l : LiveSession) (r : Stepped) (f : Agenda → Agenda) (m : LiveSession) : Prop where
  session : m.session = r.1
  agenda : m.agenda = f (r.2.foldl Agenda.heed l.agenda)
  shown : m.shown = l.shown ++ (Effect.shows r.2).flatMap l.audience
  evaluator : m.evaluator = l.evaluator
  fieldPause : m.fieldPause = l.fieldPause
  formPause : m.formPause = l.formPause
  listeners : m.listeners = l.listeners

theorem shown_told (l : LiveSession) (states : List FieldState) :
    ({ l with sightings := l.sightings ++ states.flatMap l.told } : LiveSession).shown =
      l.shown ++ states.flatMap l.audience := by
  have hone : ∀ state, ({ l with sightings := l.told state } : LiveSession).shown = l.audience state := by
    intro state
    simp [shown, told, audience, List.filterMap_map]
  have hall : ({ l with sightings := states.flatMap l.told } : LiveSession).shown = states.flatMap l.audience := by
    induction states with
    | nil => rfl
    | cons state states ih =>
        rw [List.flatMap_cons, List.flatMap_cons, ← ih, ← hone]
        exact List.filterMap_append
  rw [← hall]
  exact List.filterMap_append

theorem Calm.apply_carried (h : l.Calm) (step : Session → Stepped) :
    l.Carried (step l.session) (fun a => a) (l.apply step) := by
  rw [h.apply_eq]
  exact ⟨rfl, rfl, l.shown_told _, rfl, rfl, rfl, rfl⟩

theorem Calm.edit_carried (h : l.Calm) (id : String) (value : Value) :
    l.Carried (l.session.edit id value).1 (fun a => a) (l.edit id value).1 := by
  rw [h.edit_eq]
  exact ⟨rfl, rfl, l.shown_told _, rfl, rfl, rfl, rfl⟩

namespace Carried

theorem quiet (l : LiveSession) (f : Agenda → Agenda) : l.Carried (l.session, []) f (l.onAgenda f) :=
  ⟨rfl, rfl, (List.append_nil _).symm, rfl, rfl, rfl, rfl⟩

theorem then_agenda (h : l.Carried r f m) (g : Agenda → Agenda) : l.Carried r (fun a => g (f a)) (m.onAgenda g) :=
  ⟨h.session, congrArg g h.agenda, h.shown, h.evaluator, h.fieldPause, h.formPause, h.listeners⟩

theorem now (h : l.Carried r (fun a => a) m) : m.now = l.now := by
  rw [LiveSession.now, h.agenda]
  exact Agenda.heeds_now ..

/-- A mark was made before. -/
theorem of_marked {recorded : Bool} {stage : Stage} {field : String} {value : Value}
    (h : (l.addMark recorded stage field value).Carried r f m) : l.Carried r f m := by
  unfold addMark at h
  split at h
  · have hshown : (l.see (.mark ⟨l.now, stage, field, value⟩)).shown = l.shown := by
      rw [shown_see]
      exact List.append_nil _
    exact ⟨h.session, h.agenda, h.shown.trans (by rw [hshown]; rfl), h.evaluator, h.fieldPause, h.formPause,
      h.listeners⟩
  · exact h

end Carried

theorem planFor_marked (l : LiveSession) (recorded : Bool) (stage : Stage) (field : String) (value : Value) :
    (l.addMark recorded stage field value).planFor = l.planFor := by
  unfold addMark
  split <;> rfl

theorem Calm.addMark (h : l.Calm) (recorded : Bool) (stage : Stage) (field : String) (value : Value) :
    (l.addMark recorded stage field value).Calm := by
  unfold LiveSession.addMark
  split <;> exact h

/-- An evaluation ends, in one way or another. -/
theorem Calm.settle_carried (h : l.Calm) (recorded : Bool) (stage : Stage) (task : Nat) (id : String) (token : Nat)
    (requested : Value) (ending : Session.Ending) :
    l.Carried (l.session.settle task id token requested ending) (fun a => a.finish task)
      (((l.addMark recorded stage id requested).apply fun s => s.settle task id token requested ending).finish task) := by
  have hmark := (h.addMark recorded stage id requested).apply_carried fun s => s.settle task id token requested ending
  rw [(l.addMark_same recorded stage id requested).1] at hmark
  exact (hmark.then_agenda fun a => a.finish task).of_marked

theorem Calm.answer_carried (h : l.Calm) (task : Nat) (id : String) (token : Nat) (requested : Value) :
    l.Carried (l.session.settle task id token requested (endingOf (l.planFor id requested).answer))
      (fun a => a.finish task) (l.answer task id token requested) :=
  h.settle_carried ..

/-- It is the turn of a job that does not dispatch all fields. -/
theorem Calm.takeTurn_carried (h : l.Calm) (hw : t.work = .job j) (hs : t.stage = .fresh ∨ t.stage = .awake)
    (hj : j = .formTimer → t.cancelled ∨ t.stage = .fresh) :
    l.Carried (l.turnOf t j).1 (fun a => a.endTurn t.id (l.turnOf t j).2) (l.takeTurn t) := by
  unfold takeTurn
  rw [hw]
  cases hc : t.cancelled with
  | true =>
      cases j with
      | fieldTimer id | formTimer =>
          simp only [abandon, turnOf, hc, if_true]
          exact Carried.quiet ..
      | evaluation id token requested =>
          rcases hs with hs | hs
          · simp only [abandon, turnOf, hc, hs, if_true]
            exact Carried.quiet ..
          · simp only [abandon, turnOf, hc, hs, if_true, reduceCtorEq, if_false]
            exact h.settle_carried ..
  | false =>
      rcases hs with hs | hs
      · rw [hs]
        cases j with
        | fieldTimer id | formTimer =>
            simp only [begin, turnOf, hc, hs, if_true, Bool.false_eq_true, if_false]
            exact Carried.quiet ..
        | evaluation id token requested =>
            simp only [begin, turnOf, hc, hs, if_true, Bool.false_eq_true, if_false]
            by_cases hp : (l.planFor id requested).pause = .none
            · simp only [hp, if_true]
              have hanswer := (h.addMark (l.planFor id requested).recorded .start id requested).answer_carried t.id id
                token requested
              rw [planFor_marked, (l.addMark_same ..).1] at hanswer
              exact hanswer.of_marked
            · simp only [hp, if_false]
              have hsleep := Carried.quiet (l.addMark (l.planFor id requested).recorded .start id requested)
                fun a => a.sleep t.id (l.planFor id requested).pause
              rw [(l.addMark_same ..).1] at hsleep
              exact hsleep.of_marked
      · rw [hs]
        cases j with
        | formTimer => rcases hj rfl with hn | hn <;> simp_all
        | fieldTimer id =>
            simp only [resume, turnOf, hc, hs, Bool.false_eq_true, if_false, reduceCtorEq]
            exact (h.apply_carried fun s => s.fieldTimerFires id).then_agenda fun a => a.finish t.id
        | evaluation id token requested =>
            simp only [resume, turnOf, hc, hs, Bool.false_eq_true, if_false, reduceCtorEq]
            exact h.answer_carried ..

end LiveSession
end Formwork
