import Formwork.Proofs.Reachable

/-!
The events of a world, computed: a world is run by a list of events, as long as each of them is possible.
-/

namespace Formwork

/-- A task that is cancelled may end without a trace, unless it evaluates. -/
def Errand.vanishes (e : Errand) : Bool :=
  e.cancelled && match e.job with
    | .evaluation .. => !e.begun
    | _ => true

namespace World

/-- The task that has a turn. None has one as long as a walk over the fields is under way. -/
def running? (w : World) (task : Nat) : Option Errand :=
  if w.visits.isEmpty then w.errands.find? fun e => e.id = task else none

def afterPause? (w : World) (e : Errand) : Option (List Effect × World) :=
  match e.job with
  | .fieldTimer id =>
      some ((w.session.fieldTimerFires id).2, (w.without e.id).absorb (w.session.fieldTimerFires id))
  | .formTimer =>
      some ([], { w.without e.id with
        session := w.session.formTimerFires.1, visits := w.session.ids.map .valued })
  | .evaluation .. => none

def afterAnswer? (w : World) (e : Errand) (ending : Session.Ending) : Option (List Effect × World) :=
  match e.job with
  | .evaluation id token requested =>
      some ((w.session.settle e.id id token requested ending).2,
        (w.without e.id).absorb (w.session.settle e.id id token requested ending))
  | _ => none

def next? (w : World) : Event → Option (List Effect × World)
  | .edit id value => some ((w.session.edit id value).1.2, w.absorb (w.session.edit id value).1)
  | .flush =>
      if w.visits.isEmpty then
        some (w.session.beginFlush.2,
          { w with visits := w.session.ids.map .pausing }.absorb w.session.beginFlush)
      else none
  | .validateAll =>
      match w.session.outcomes with
      | .ok outcomes => some ([], { w with visits := outcomes.map (fun o => .outcome o.1 o.2) ++ w.visits })
      | .error _ => some ([], w)
  | .close => if w.visits.isEmpty then some (w.session.close.2, w.absorb w.session.close) else none
  | .visit =>
      match w.visits with
      | [] => none
      | v :: rest => some ((v.step w.session).2, { w with visits := rest }.absorb (v.step w.session))
  | .begin task =>
      (w.running? task).bind fun e => if e.begun || e.cancelled then none else some ([], w.markBegun e.id)
  | .pauseOver task =>
      (w.running? task).bind fun e => if e.begun && !e.cancelled then w.afterPause? e else none
  | .answer task ending =>
      (w.running? task).bind fun e => if e.begun then w.afterAnswer? e ending else none
  | .vanish task =>
      (w.running? task).bind fun e => if e.vanishes then some ([], w.without e.id) else none
  | .otherTask => some ([], { w with session := { w.session with nextTask := w.session.nextTask + 1 } })

variable {w w' : World} {event : Event} {fx : List Effect} {task : Nat} {e : Errand}

theorem running?_some (h : w.running? task = some e) : w.visits = [] ∧ e ∈ w.errands ∧ e.id = task := by
  unfold running? at h
  split at h
  · next hv => exact ⟨List.isEmpty_iff.mp hv, List.mem_of_find?_eq_some h, by simpa using List.find?_some h⟩
  · cases h

theorem next?_step (h : w.next? event = some (fx, w')) : w.Step event fx w' := by
  cases event with
  | edit id value =>
      cases h
      exact .edit id value
  | flush =>
      simp only [next?] at h
      split at h
      · next hv => cases h; exact .flush (List.isEmpty_iff.mp hv)
      · cases h
  | validateAll =>
      simp only [next?] at h
      split at h
      · next outcomes ho => cases h; exact .validateAll outcomes ho
      · next e he => cases h; exact .validateNone e he
  | close =>
      simp only [next?] at h
      split at h
      · next hv => cases h; exact .close (List.isEmpty_iff.mp hv)
      · cases h
  | visit =>
      simp only [next?] at h
      split at h
      · cases h
      · next v rest hv => cases h; exact .visit v rest hv
  | begin task =>
      obtain ⟨e, hr, hf⟩ := Option.bind_eq_some_iff.mp h
      obtain ⟨hv, he, rfl⟩ := running?_some hr
      split at hf
      · cases hf
      · next hn =>
          obtain ⟨hb, hc⟩ := Bool.or_eq_false_iff.mp (Bool.eq_false_iff.mpr hn)
          cases hf
          exact .begin e hv he hb hc
  | pauseOver task =>
      obtain ⟨e, hr, hf⟩ := Option.bind_eq_some_iff.mp h
      obtain ⟨hv, he, rfl⟩ := running?_some hr
      split at hf
      · next hn =>
          obtain ⟨hb, hc⟩ := Bool.and_eq_true_iff.mp hn
          rw [Bool.not_eq_true'] at hc
          simp only [afterPause?] at hf
          split at hf
          · next id hj => cases hf; exact .fieldPauseOver e id hv he hj hb hc
          · next hj => cases hf; exact .formPauseOver e hv he hj hb hc
          · cases hf
      · cases hf
  | answer task ending =>
      obtain ⟨e, hr, hf⟩ := Option.bind_eq_some_iff.mp h
      obtain ⟨hv, he, rfl⟩ := running?_some hr
      split at hf
      · next hb =>
          simp only [afterAnswer?] at hf
          split at hf
          · next id token requested hj => cases hf; exact .answer e id token requested ending hv he hj hb
          · cases hf
      · cases hf
  | vanish task =>
      obtain ⟨e, hr, hf⟩ := Option.bind_eq_some_iff.mp h
      obtain ⟨hv, he, rfl⟩ := running?_some hr
      split at hf
      · next hn =>
          obtain ⟨hc, hb⟩ := Bool.and_eq_true_iff.mp hn
          cases hf
          refine .vanish e hv he hc fun id token requested hj => ?_
          simpa [hj] using hb
      · cases hf
  | otherTask =>
      cases h
      exact .otherTask

/-- In a sound world an event leads to one world only, the one that is computed. -/
theorem step_iff_next? (hw : w.Sound) : w.Step event fx w' ↔ w.next? event = some (fx, w') := by
  refine ⟨fun h => ?_, next?_step⟩
  have running : ∀ e, w.visits = [] → e ∈ w.errands → w.running? e.id = some e := by
    intro e hv he
    rw [running?, if_pos (List.isEmpty_iff.mpr hv)]
    have hs : (w.errands.find? fun x => x.id = e.id).isSome := List.find?_isSome.mpr ⟨e, he, by simp⟩
    obtain ⟨x, hx⟩ := Option.isSome_iff_exists.mp hs
    rw [hx, hw.eq_of_id (List.mem_of_find?_eq_some hx) he (by simpa using List.find?_some hx)]
  cases h with
  | edit | otherTask => rfl
  | flush hv | close hv => simp [next?, hv]
  | validateAll _ ho | validateNone _ ho => simp [next?, ho]
  | visit v rest hv => simp [next?, hv]
  | begin e hv he hb hc => simp [next?, running e hv he, hb, hc]
  | fieldPauseOver e id hv he hj hb hc | formPauseOver e hv he hj hb hc =>
      simp [next?, running e hv he, hb, hc, afterPause?, hj]
  | answer e id token requested ending hv he hj hb =>
      simp [next?, running e hv he, hb, afterAnswer?, hj]
  | vanish e hv he hc hj =>
      have hn : e.vanishes := by
        rw [Errand.vanishes, hc, Bool.true_and]
        split
        · next hj' => simp [hj _ _ _ hj']
        · rfl
      simp [next?, running e hv he, hn]

/-- The transitions of a list of events, and the world after them. -/
def run? : World → List Event → Option (List Transition × World)
  | w, [] => some ([], w)
  | w, event :: events => do
      let (effects, next) ← w.next? event
      let (ts, last) ← run? next events
      return (⟨w, event, effects, next⟩ :: ts, last)

theorem run?_events {w w' : World} {events : List Event} {ts : List Transition}
    (h : w.run? events = some (ts, w')) : ts.map (·.event) = events := by
  induction events generalizing w ts with
  | nil =>
      cases h
      rfl
  | cons event events ih =>
      obtain ⟨⟨fx, v⟩, -, h⟩ := Option.bind_eq_some_iff.mp h
      obtain ⟨⟨us, v'⟩, hv, h⟩ := Option.bind_eq_some_iff.mp h
      cases h
      rw [List.map_cons, ih hv]

/-- The run of events that are possible. -/
theorem run?_get {w : World} {events : List Event} (h : (w.run? events).isSome) :
    w.run? events = some (((w.run? events).get h).1, ((w.run? events).get h).2) := (Option.some_get h).symm

theorem run?_event {w w' : World} {events : List Event} {ts : List Transition} (h : w.run? events = some (ts, w'))
    {event : Event} (he : event ∈ events) : ∃ t ∈ ts, t.event = event := by
  rw [← run?_events h] at he
  exact List.mem_map.mp he

/-- What holds at the start and is kept by every step holds after every run. -/
theorem run?_induction {P : List Transition → World → Prop}
    (hstep : ∀ {ts w event fx w'}, P ts w → w.Step event fx w' → P (ts ++ [⟨w, event, fx, w'⟩]) w')
    {ts : List Transition} {w w' : World} {events : List Event} (h : P [] w) (hr : w.run? events = some (ts, w')) :
    P ts w' := by
  have key : ∀ (us ts : List Transition) (w : World) (events : List Event), P us w →
      w.run? events = some (ts, w') → P (us ++ ts) w' := by
    intro us ts w events
    induction events generalizing us ts w with
    | nil =>
        intro h hr
        cases hr
        rwa [List.append_nil]
    | cons event events ih =>
        intro h hr
        obtain ⟨⟨fx, v⟩, hn, hr⟩ := Option.bind_eq_some_iff.mp hr
        obtain ⟨⟨vs, v'⟩, hv, hr⟩ := Option.bind_eq_some_iff.mp hr
        cases hr
        have hs := ih _ vs v (hstep h (next?_step hn)) hv
        rwa [List.append_assoc] at hs
  exact key [] ts w events h hr

end World

theorem History.run? {ts us : List World.Transition} {w w' : World} {events : List World.Event}
    (h : History ts w) (hr : w.run? events = some (us, w')) : History (ts ++ us) w' := by
  refine World.run?_induction (P := fun us w => History (ts ++ us) w) (fun h hs => ?_) ?_ hr
  · rw [← List.append_assoc]
    exact .step h hs
  · rwa [List.append_nil]

/-- The history of an opened session that some events run. -/
theorem Session.Opened.history {s : Session} (h : s.Opened) {events : List World.Event}
    (hr : (World.run? { session := s } events).isSome) :
    History ((World.run? { session := s } events).get hr).1 ((World.run? { session := s } events).get hr).2 :=
  History.run? (.opened h) (Option.some_get hr).symm

/-! ## A small run -/

namespace Sample

def schema : Schema where
  id := "survey"
  title := .text "Survey"
  fields := [{ id := "name", type := .text, label := .text "Name" },
    { id := "news", type := .checkbox, label := .text "News" }]

def session : Session where
  validator := { schema, checks := schema.fields.map fun field => { field } }
  slots := schema.fields.map fun field => { field }

theorem opened : session.Opened := ⟨schema, session.validator, .field, true, [], rfl, rfl⟩

/-- What the evaluator of this form finds. -/
def findings (_ : String) : Value → List Finding
  | .text "Ann" => [⟨.error, "No such name", .int 1, "", none⟩]
  | _ => []

/-- Two names are entered, and the evaluation of the first one answers last. -/
def events : List World.Event :=
  [.edit "name" (.text "Ann"), .begin 0, .pauseOver 0, .begin 1, .edit "name" (.text "Bob"), .begin 2,
    .pauseOver 2, .begin 3, .answer 3 (.findings (findings "name" (.text "Bob"))),
    .answer 1 (.findings (findings "name" (.text "Ann"))), .edit "news" (.bool true), .flush, .visit, .visit,
    .vanish 4, .begin 5, .answer 5 (.findings (findings "news" (.bool true)))]

theorem possible : (World.run? { session } events).isSome := by decide +kernel

def run : List World.Transition × World := (World.run? { session } events).get possible

theorem history : History run.1 run.2 := opened.history possible

end Sample
end Formwork
