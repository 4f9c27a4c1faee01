import Formwork.Proofs.Deliveries
import Formwork.Proofs.StuckFields

/-!
Courses of an open session, and what its listeners know after each of them.
-/

namespace Formwork

namespace LiveSession

variable {l m n : LiveSession} {w : Wait}

/-- A call that waits has its first turn at once. -/
def enter (l : LiveSession) (w : Wait) : LiveSession :=
  let task := l.session.nextTask
  { l with
    agenda := { l.agenda with tasks := l.agenda.tasks ++ [({ id := task, work := .wait w } : Task)] }
    session := { l.session with nextTask := task + 1 } }.beginWait task w

/-- The calls that are made while the session is open, with all that happens between them. The edits return, and the
listeners that are added only listen. -/
inductive Course (l : LiveSession) : LiveSession → Prop
  | start : Course l l
  | edit {m : LiveSession} (h : Course l m) (id : String) (value : Value) {state : FieldState}
      (he : (m.edit id value).2 = .ok state) : Course l (m.edit id value).1
  | validateAll {m : LiveSession} (h : Course l m) : Course l m.validateAll.1
  | enter {m : LiveSession} (h : Course l m) {w : Wait} (hw : w ≠ .close) : Course l (m.enter w)
  | startWait {m : LiveSession} (h : Course l m) {w : Wait} (hw : w ≠ .close) : Course l (m.startWait w)
  | addListener {m : LiveSession} (h : Course l m) {x : Listener} (hx : ∀ state, x.respond state = []) :
      Course l (m.addListener x)
  | onward {m n : LiveSession} (h : Course l m) (hn : m.Onward n) : Course l n

namespace Course

theorem await (h : l.Course m) (fuel : Nat) (hw : w ≠ .close) : l.Course (await fuel m w) :=
  onward_drain onward (onward_runToEnd onward (h.enter hw) m.session.nextTask fuel) fuel

end Course

/-- What is so in the course of an open session. -/
structure InCourse (l m : LiveSession) : Prop where
  informs : l.Informs m
  ids : m.session.ids = l.session.ids
  calm : m.Calm
  only : m.agenda.Only (· ≠ .wait .close)

theorem InCourse.acts (h : l.InCourse m) (hd : l.session.ids.Nodup) (ha : m.Acts n) : l.InCourse n := by
  obtain ⟨hi, hids⟩ := ha.informs h.calm (h.ids ▸ hd)
  exact ⟨h.informs.trans hi, hids.trans h.ids, ha.calm h.calm, ha.only h.calm h.only (by simp)⟩

/-- A call that waits takes the next number. -/
theorem InCourse.call (h : l.InCourse m) (hw : w ≠ .close) {a : Agenda}
    (hr : a.roster = m.agenda.roster ++ [(m.session.nextTask, .wait w)]) :
    l.InCourse { m with agenda := a, session := { m.session with nextTask := m.session.nextTask + 1 } } := by
  refine ⟨h.informs.trans (.quiet (fun _ hx => hx) (fun _ => rfl) rfl), h.ids, h.calm, fun x hx => ?_⟩
  rcases List.mem_append.mp (hr ▸ hx) with hx | hx
  · exact h.only x hx
  · rw [List.mem_singleton.mp hx]
    simpa using hw

theorem Course.inCourse (h : l.Course m) (hc : l.Calm) (hd : l.session.ids.Nodup)
    (ho : l.agenda.Only (· ≠ .wait .close)) : l.InCourse m := by
  induction h with
  | start => exact ⟨.refl l, rfl, hc, ho⟩
  | @edit m _ id value state he ih =>
      have htells : m.session.Tells (m.session.edit id value).1 := Session.edit_tells he
      have hinforms : m.Informs (m.edit id value).1 := ih.calm.carryOut_informs (editTo 99) htells
      rw [ih.calm.edit_eq] at hinforms ⊢
      refine ⟨ih.informs.trans hinforms, (m.session.edit_alike id value).ids.trans ih.ids, ih.calm, ?_⟩
      exact ih.only.heeds (by simp)
  | @validateAll m _ ih =>
      unfold LiveSession.validateAll
      split
      · exact ih.acts hd (Acts.nothing.recordAll _)
      · exact ih
  | @enter m _ w hw ih =>
      have hcall := ih.call hw (a := { m.agenda with
        tasks := m.agenda.tasks ++ [{ id := m.session.nextTask, work := .wait w }] }) (List.map_append ..)
      exact hcall.acts hd (beginWait_acts _ _ hw)
  | startWait _ hw ih => exact ih.call hw (Agenda.roster_start ..)
  | @addListener m _ x hx ih =>
      refine ⟨ih.informs.trans (.quiet (fun _ hy => List.mem_append_left _ hy) (fun _ => rfl) rfl), ih.ids, ?_, ih.only⟩
      intro y hy
      rcases List.mem_append.mp hy with hy | hy
      · exact ih.calm y hy
      · rw [List.mem_singleton.mp hy]
        exact hx
  | @onward m n _ hn ih =>
      cases hn with
      | turn ht => exact ih.acts hd (turn_acts ih.only ht)
      | alarms _ ha =>
          obtain ⟨a, hadvance, rfl⟩ := Option.map_eq_some_iff.mp ha
          refine ⟨ih.informs.trans (.quiet (fun _ hx => hx) (fun _ => rfl) rfl), ih.ids, ih.calm, ?_⟩
          exact ih.only.of_roster (Agenda.roster_advance? hadvance)
      | clock | evaluator =>
          exact ⟨ih.informs.trans (.quiet (fun _ hx => hx) (fun _ => rfl) rfl), ih.ids, ih.calm, ih.only⟩

end LiveSession

namespace Session

theorem state_eq (s : Session) (id : String) : s.state id =
    match s.states.find? fun state => state.field.id = id with
    | some state => .ok state
    | none => .error (.unknownField id s.schema.id) := by
  have hfind : (s.states.find? fun state => state.field.id = id) = (s.slot? id).map Slot.state := by
    rw [states, List.find?_map]
    rfl
  rw [hfind, state, slot]
  cases s.slot? id <;> rfl

end Session

namespace Sample

/-- A form with one listener that raises an exception at each call, and another one behind it. -/
def watched : LiveSession where
  session := profile
  evaluator _ _ := { pause := .time 500000, answer := .findings [] }
  listeners := [{ name := "broken", raises := fun _ => true }, { name := "screen" }]

/-- A name is entered, all fields are checked, and the evaluations are awaited. -/
def watchedLater : LiveSession := .await 20 (watched.edit "name" (.text "Bo")).1.validateAll.1 .flush

theorem watched_course : watched.Course watchedLater :=
  ((LiveSession.Course.start.edit "name" (.text "Bo") rfl).validateAll).await 20 (by decide)

end Sample

end Formwork
