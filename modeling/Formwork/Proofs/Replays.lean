import Formwork.Cli.Replay
import Formwork.Proofs.Batches
import Formwork.Proofs.Freshness
import Formwork.Proofs.Hearings

/-!
Pending fields are announced exactly when requests are issued, in every course of an open session in which no edit
overtakes a validation of all fields. So a replay lists each request once, and nothing else.
-/

namespace Formwork

open World Session

namespace Session

variable {s : Session}

theorem Opened.verified (h : s.Opened) : s.Verified := by
  obtain ⟨schema, v, mode, cancelStale, initial, hv, hs⟩ := h
  have hfilled := Filled.ofValidator hs
  intro c hc hn o ho
  by_cases hid : c.field.id ∈ initial.map Prod.fst
  · exact Except.ok.inj ((hfilled.filled c hc hid).symm.trans ho)
  · rw [(hfilled.empty c hc hid).1] at hn
    cases hn

/-- Recording an outcome changes no value. -/
theorem recordOutcome_value (s : Session) (id field : String) (o : Outcome) {c : Slot}
    (hc : (s.recordOutcome id o).1.slot? field = some c) :
    ∃ b, s.slot? field = some b ∧ c.value = b.value := by
  rcases s.recordOutcome_cases id o with he | ⟨a, ha, he⟩
  · exact ⟨c, by rwa [he] at hc, rfl⟩
  · obtain rfl := slot?_id ha
    rw [he] at hc
    by_cases hf : a.field.id = field
    · subst hf
      have hput := slot?_putSlot_self (b := { a with structural := o }) ha
      exact ⟨a, ha, by rw [← Option.some.inj (hput.symm.trans hc)]⟩
    · have hput := s.slot?_putSlot_of_ne (b := { a with structural := o }) hf
      exact ⟨c, hput.symm.trans hc, rfl⟩

end Session

namespace LiveSession

variable {l m n : LiveSession} {name : String} {p : String → Bool}

/-- Listeners that only listen overtake nothing. -/
theorem Calm.inTime (hl : l.Calm) (hf : l.Follows [] none []) : l.InTime := by
  have values (done : List (String × Outcome)) : (l.recordAll done).Calm ∧
      ∀ field c, (l.recordAll done).session.slot? field = some c →
        ∃ b, l.session.slot? field = some b ∧ c.value = b.value := by
    induction done using List.reverseRecOn with
    | nil => exact ⟨hl, fun _ c hc => ⟨c, hc, rfl⟩⟩
    | append_singleton done o ih =>
        obtain ⟨hcalm, hvalues⟩ := ih
        have happly : l.recordAll (done ++ [o]) = (l.recordAll done).apply (recordOutcome o.1 o.2) :=
          l.recordAll_append done [o]
        rw [happly, hcalm.apply_eq]
        refine ⟨hcalm, fun field c hc => ?_⟩
        obtain ⟨b, hb, hcb⟩ := recordOutcome_value _ _ _ _ hc
        obtain ⟨a, ha, hba⟩ := hvalues field b hb
        exact ⟨a, ha, hcb.trans hba⟩
  obtain ⟨us, w, hw, -, hm⟩ := hf
  obtain ⟨schema, hv, hi⟩ := hw.sound.compiled
  intro outcomes ho done o rest he c hc
  obtain ⟨id, o⟩ := o
  obtain ⟨b, hb, hcb⟩ := (values done).2 id c hc
  obtain rfl := slot?_id hb
  rw [hm.session] at hv hi
  rw [hcb]
  exact outcome_of_mem hv hi ho (slot?_mem hb) (by simp [he])

/-- What can be done with an open session in which a listener of that name is from the start. The others may answer with
edits, but none that overtakes a validation of all fields. -/
inductive Attended (name : String) : LiveSession → Prop
  | opened {s : Session} (hs : s.Opened) (evaluator : Evaluator) (fieldPause formPause : Pause)
      {listeners : List Listener} (hl : listeners.countP (fun x => x.name = name) = 1) :
      Attended name { session := s, evaluator, fieldPause, formPause, listeners }
  | edit {m : LiveSession} (h : Attended name m) (id : String) (value : Value) : Attended name (m.edit id value).1
  | validateAll {m : LiveSession} (h : Attended name m) (hin : m.InTime) : Attended name m.validateAll.1
  | enter {m : LiveSession} (h : Attended name m) {w : Wait} (hw : w ≠ .close) : Attended name (m.enter w)
  | startWait {m : LiveSession} (h : Attended name m) {w : Wait} (hw : w ≠ .close) : Attended name (m.startWait w)
  | addListener {m : LiveSession} (h : Attended name m) {x : Listener} (hx : x.name ≠ name) :
      Attended name (m.addListener x)
  | removeListener {m : LiveSession} (h : Attended name m) {other : String} (ho : other ≠ name) :
      Attended name (m.removeListener other).1
  | onward {m n : LiveSession} (h : Attended name m) (hn : m.Onward n) : Attended name n

theorem Overhears.told (h : l.Overhears p m) (hl : l.announced p = l.agenda.requests) :
    m.announced p = m.agenda.requests := by
  obtain ⟨asked, ht, ha⟩ := h
  rw [ht, ha, hl]

theorem roster_called (l : LiveSession) (w : Wait) :
    (l.called w).agenda.roster = l.agenda.roster ++ [(l.session.nextTask, .wait w)] := List.map_append ..

/-- A listener has heard of every request, and nobody has called to close but the task that may be named. -/
structure InTouch (p : String → Bool) (closer : Option Nat) (l : LiveSession) : Prop where
  follows : l.Follows [] none []
  once : l.listeners.countP (fun x => p x.name) = 1
  told : l.announced p = l.agenda.requests
  verified : l.session.Verified
  closing : ∀ k, (k, .wait .close) ∈ l.agenda.roster → closer = some k

namespace InTouch

variable {closer : Option Nat} {w : Wait}

theorem ready (h : l.InTouch p closer) : l.Ready p := h.follows.ready h.once

theorem keepsUp (h : l.InTouch p closer) (hk : l.KeepsUp p m) (hf : m.Follows [] none []) :
    m.InTouch p closer :=
  ⟨hf, hk.ready.once, hk.overhears.told h.told, hk.verified h.verified, fun k hx => h.closing k (hk.waits hx)⟩

/-- Nothing has happened that the listener would hear of. -/
theorem still (h : l.InTouch p closer) (hf : m.Follows [] none []) (hs : m.session = l.session)
    (hr : m.agenda.roster = l.agenda.roster) (hl : m.listeners = l.listeners) (hd : m.sightings = l.sightings) :
    m.InTouch p closer := by
  refine h.keepsUp ⟨[], h.ready.hears hs hr hl ?_⟩ hf
  rw [announced, hd, List.append_nil]
  rfl

theorem opened {s : Session} (hs : s.Opened) (evaluator : Evaluator) (fieldPause formPause : Pause)
    {listeners : List Listener} (hl : listeners.countP (fun x => p x.name) = 1) :
    InTouch p none { session := s, evaluator, fieldPause, formPause, listeners } :=
  ⟨opened_follows hs rfl rfl, hl, rfl, hs.verified, fun _ hx => by cases hx⟩

theorem edit (h : l.InTouch p closer) (id : String) (value : Value) : (l.edit id value).1.InTouch p closer :=
  h.keepsUp ⟨[], edit_hears h.ready id value⟩ (edit_follows h.follows id value)

theorem validateAll (h : l.InTouch p closer) (hin : l.InTime) : l.validateAll.1.InTouch p closer :=
  h.keepsUp (h.follows.validateAll_keepsUp h.once h.verified hin) (validateAll_follows h.follows)

theorem told_called (h : l.InTouch p closer) (w : Wait) :
    (l.called w).announced p = (l.called w).agenda.requests := by
  rw [Agenda.requests, roster_called, List.filterMap_append]
  exact h.told.trans (List.append_nil _).symm

/-- A caller that waits is about to have its first turn. -/
theorem called (h : l.InTouch p none) (hw : w = .close → closer = some l.session.nextTask)
    (hk : (l.called w).KeepsUp p m) (hf : m.Follows [] none []) : m.InTouch p closer := by
  refine ⟨hf, hk.ready.once, hk.overhears.told (h.told_called w), hk.verified h.verified, fun k hx => ?_⟩
  have hcalled := hk.waits hx
  rw [roster_called] at hcalled
  rcases List.mem_append.mp hcalled with hx | hx
  · cases h.closing k hx
  · obtain ⟨rfl, he⟩ := Prod.mk.inj (List.mem_singleton.mp hx)
    exact hw (Work.wait.inj he).symm

theorem ready_called (h : l.InTouch p closer) (w : Wait) : (l.called w).Ready p :=
  (called_follows h.follows w).ready h.once

theorem enter (h : l.InTouch p none) (hw : w ≠ .close) : (l.enter w).InTouch p none :=
  h.called (fun hc => absurd hc hw) ((KeepsUp.start (h.ready_called w)).beginWait _ hw)
    (beginWait_follows (called_follows h.follows w))

theorem startWait (h : l.InTouch p none) (hw : w ≠ .close) : (l.startWait w).InTouch p none := by
  have hroster : (l.startWait w).agenda.roster = (l.called w).agenda.roster :=
    (Agenda.roster_start ..).trans (l.roster_called w).symm
  have hk : (l.called w).KeepsUp p (l.startWait w) :=
    ⟨[], (h.ready_called w).hears rfl hroster rfl (List.append_nil _).symm⟩
  exact h.called (fun hc => absurd hc hw) hk (startWait_follows h.follows w)

theorem addListener (h : l.InTouch p closer) {x : Listener} (hx : p x.name = false) :
    (l.addListener x).InTouch p closer := by
  refine ⟨h.follows.congr rfl rfl, ?_, h.told, h.verified, h.closing⟩
  rw [LiveSession.addListener, List.countP_append, h.once]
  simp [hx]

theorem removeListener (h : l.InTouch p closer) {other : String} (ho : p other = false) :
    (l.removeListener other).1.InTouch p closer := by
  have herased : (l.listeners.eraseP fun x => x.name = other).countP (fun x => p x.name) = 1 := by
    rcases List.exists_or_eq_self_of_eraseP (fun x : Listener => decide (x.name = other)) l.listeners with
      he | ⟨x, before, after, -, hx, hl, he⟩
    · rw [he, h.once]
    · have hname : p x.name = false := of_decide_eq_true hx ▸ ho
      rw [he, ← h.once, hl]
      simp [List.countP_append, hname]
  unfold LiveSession.removeListener
  split
  · next i hi =>
      rw [List.eraseP_eq_eraseIdx, hi] at herased
      exact ⟨h.follows.congr rfl rfl, herased, h.told, h.verified, h.closing⟩
  · exact h

/-- A turn is taken, after which a call to close may be over. -/
theorem turn (h : l.InTouch p closer) (ht : l.turn? = some m) : m.InTouch p closer ∨
    m.announced p = m.agenda.requests ∧ ∃ k, closer = some k ∧ m.agenda.isDone k := by
  rcases h.follows.turn_keepsUp h.once ht with hk | ⟨k, hx, ho, hd⟩
  · exact .inl (h.keepsUp hk (turn_follows h.follows ht))
  · exact .inr ⟨ho.told h.told, k, h.closing k hx, hd⟩

theorem alarms (h : l.InTouch p closer) (ha : l.advance? none = some m) : m.InTouch p closer := by
  have hf := advance_follows h.follows ha
  obtain ⟨a, hadvance, rfl⟩ := Option.map_eq_some_iff.mp ha
  exact h.still hf rfl (Agenda.roster_advance? hadvance) rfl rfl

theorem onward (h : l.InTouch p none) (hn : l.Onward m) : m.InTouch p none := by
  cases hn with
  | turn ht =>
      refine (h.turn ht).resolve_right ?_
      rintro ⟨-, k, hk, -⟩
      cases hk
  | alarms _ ha => exact h.alarms ha
  | clock time => exact h.still (clock_follows h.follows _) rfl rfl rfl rfl
  | evaluator e => exact h.still (h.follows.congr rfl rfl) rfl rfl rfl rfl

end InTouch

theorem Attended.await (h : l.Attended name) (fuel : Nat) {w : Wait} (hw : w ≠ .close) :
    (await fuel l w).Attended name :=
  onward_drain Attended.onward (onward_runToEnd Attended.onward (h.enter hw) l.session.nextTask fuel) fuel

theorem Attended.inTouch (h : l.Attended name) : l.InTouch (fun x => x = name) none := by
  induction h with
  | opened hs evaluator fieldPause formPause hl => exact .opened hs evaluator fieldPause formPause hl
  | edit _ id value ih => exact ih.edit id value
  | validateAll _ hin ih => exact ih.validateAll hin
  | enter _ hw ih => exact ih.enter hw
  | startWait _ hw ih => exact ih.startWait hw
  | addListener _ hx ih => exact ih.addListener (decide_eq_false hx)
  | removeListener _ ho ih => exact ih.removeListener (decide_eq_false ho)
  | onward _ hn ih => exact ih.onward hn

/-! ## Closing -/

theorem runToEnd_done {k : Nat} (h : l.agenda.isDone k) (fuel : Nat) : LiveSession.runToEnd k fuel l = l := by
  cases fuel <;> simp [LiveSession.runToEnd, h]

/-- Turns are taken until a call to close is over. -/
theorem InTouch.runToEnd {k : Nat} (h : l.InTouch p (some k)) (fuel : Nat) :
    (LiveSession.runToEnd k fuel l).announced p = (LiveSession.runToEnd k fuel l).agenda.requests := by
  induction fuel generalizing l with
  | zero => exact h.told
  | succ fuel ih =>
      rw [LiveSession.runToEnd]
      split
      · exact h.told
      · cases ht : l.turn? with
        | some m =>
            rcases h.turn ht with hm | ⟨heard, k', hk, hd⟩
            · exact ih hm
            · obtain rfl := Option.some.inj hk
              simp only [runToEnd_done hd, heard]
        | none =>
            cases ha : l.advance? none with
            | some m => exact ih (h.alarms ha)
            | none => exact h.told

theorem InTouch.close (h : l.InTouch p none) (fuel : Nat) :
    (l.waitOut fuel .close).announced p = (l.waitOut fuel .close).agenda.requests := by
  have hout : l.waitOut fuel .close =
      LiveSession.runToEnd l.session.nextTask fuel ((l.called .close).beginWait l.session.nextTask .close) := rfl
  have hf := beginWait_follows (called_follows h.follows .close)
  rw [hout]
  rcases (KeepsUp.start (h.ready_called .close)).beginClose l.session.nextTask with hk | ⟨ho, hd⟩
  · exact (h.called (fun _ => rfl) hk hf).runToEnd fuel
  · rw [runToEnd_done hd]
    exact ho.told (h.told_called .close)

/-! ## Replays -/

theorem InTouch.waitOut {w : Wait} (h : l.InTouch p none) (hw : w ≠ .close) (fuel : Nat) :
    (l.waitOut fuel w).InTouch p none :=
  onward_runToEnd InTouch.onward (h.enter hw) l.session.nextTask fuel

end LiveSession

namespace Cli.Replay

variable {l m : LiveSession} {p : String → Bool} {e : Edit} {fuel pause : Nat}

/-- How a request is listed. -/
def listed (x : String × Value) : Value := .record [("field", .text x.1), ("value", x.2)]

theorem makeEdit_inTouch (h : l.InTouch p none) (hm : makeEdit l e = .ok m) : m.InTouch p none := by
  have hedit := h.edit e.1 (.text e.2)
  unfold makeEdit at hm
  split at hm
  · next n state hr =>
      rw [hr] at hedit
      exact Except.ok.inj hm ▸ hedit
  · cases hm

theorem pauseAndEdit_inTouch (h : l.InTouch p none) (hm : pauseAndEdit fuel pause l e = .ok m) : m.InTouch p none := by
  refine makeEdit_inTouch ?_ hm
  split
  · exact h
  · exact h.waitOut (by simp) fuel

theorem makeEdits_inTouch (h : l.InTouch p none) {edits : List Edit} (hm : makeEdits fuel pause l edits = .ok m) :
    m.InTouch p none := by
  have rest : ∀ (es : List Edit) {l : LiveSession}, l.InTouch p none →
      es.foldlM (pauseAndEdit fuel pause) l = .ok m → m.InTouch p none := by
    intro es
    induction es with
    | nil => exact fun h hm => Except.ok.inj hm ▸ h
    | cons e es ih =>
        intro l h hm
        rw [List.foldlM_cons] at hm
        obtain ⟨n, hn, hm⟩ := bind_ok.mp hm
        exact ih (pauseAndEdit_inTouch h hn) hm
  cases edits with
  | nil => exact Except.ok.inj hm ▸ h
  | cons e es =>
      obtain ⟨n, hn, hm⟩ := bind_ok.mp hm
      exact rest es (makeEdit_inTouch h hn) hm

/-- The requests that a replay lists are those that all listeners together have heard of. -/
theorem requests_listed (m : LiveSession) :
    (requests m).map requestValue = (m.announced fun _ => true).map listed := by
  rw [requests, LiveSession.announced, List.map_filterMap, List.map_filterMap]
  refine List.filterMap_congr fun x _ => ?_
  cases x with
  | shown time listener state =>
      by_cases hp : state.phase = .pending <;> simp [FieldState.request?, hp, requestValue, listed]
  | mark => rfl

theorem run_requests {s : Session} (hs : s.Opened) {evaluator : Evaluator} {fieldPause formPause : Pause}
    {edits : List Edit} (hm : run { session := s, evaluator, fieldPause, formPause } edits pause = .ok m) :
    (report m edits).entry "advisoryRequests" = .list (m.agenda.requests.map listed) := by
  obtain ⟨n, hn, hm⟩ := bind_ok.mp hm
  have hopened : LiveSession.InTouch (fun _ => true) none
      { session := s, evaluator, fieldPause, formPause, listeners := [listener] } :=
    .opened hs evaluator fieldPause formPause rfl
  have hedited := makeEdits_inTouch hopened hn
  have hclosed (fuel : Nat) := (hedited.waitOut (w := .idle) (by simp) fuel).close fuel
  have hentry (r : LiveSession) : (report r edits).entry "advisoryRequests" =
      .list ((requests r).map requestValue) := by
    rw [report, Value.entry_record]
    rfl
  obtain rfl := Except.ok.inj hm
  rw [hentry, requests_listed, hclosed]

end Cli.Replay

/-- In an open session in which no edit overtakes a validation of all fields, a listener that is there from the start is
shown pending fields exactly as their evaluations are requested: in order, each with the value to be evaluated, and no
other time. Listeners that only listen overtake nothing, and a replay lists exactly the requests. -/
theorem requests_announced {name : String} {m : LiveSession} (h : m.Attended name) :
    (m.delivered name).filterMap FieldState.request? = m.agenda.requests ∧ (m.Calm → m.InTime) ∧
      ∀ (s : Session) (evaluator : Evaluator) (fieldPause formPause : Pause) (edits : List Cli.Edit) (pause : Nat)
        (r : LiveSession), s.Opened →
          Cli.Replay.run { session := s, evaluator, fieldPause, formPause } edits pause = .ok r →
            (Cli.Replay.report r edits).entry "advisoryRequests" =
              .list (r.agenda.requests.map Cli.Replay.listed) := by
  refine ⟨?_, fun hc => hc.inTime h.inTouch.follows, fun s _ _ _ _ _ _ hs hr => Cli.Replay.run_requests hs hr⟩
  rw [← m.announced_name]
  exact h.inTouch.told

namespace Sample

theorem watchedLater_attended : watchedLater.Attended "screen" := by
  have hedited : (watched.edit "name" (.text "Bo")).1.Attended "screen" :=
    .edit (.opened profile_opened _ _ _ rfl) "name" (.text "Bo")
  have hwatched : watched.Calm := by simp [LiveSession.Calm, watched]
  have hcalm : (watched.edit "name" (.text "Bo")).1.Calm := fun x hx =>
    hwatched x ((hwatched.edit_carried "name" (.text "Bo")).listeners ▸ hx)
  exact (hedited.validateAll (hcalm.inTime hedited.inTouch.follows)).await 20 (by decide)

/-- A name is entered in a replay. -/
def replayed : Except Fault LiveSession :=
  Cli.Replay.run { session := profile, evaluator := watched.evaluator } [("name", "Bo")] 0

end Sample

theorem requests_announced_watched :
    ((Sample.watchedLater.delivered "screen").filterMap FieldState.request?).map Prod.fst = ["name"] ∧
      (Sample.watchedLater.delivered "screen").filterMap FieldState.request? = Sample.watchedLater.agenda.requests ∧
      ∃ r, Sample.replayed = .ok r ∧ r.agenda.requests.map Prod.fst = ["name"] ∧
        (Cli.Replay.report r [("name", "Bo")]).entry "advisoryRequests" =
          .list (r.agenda.requests.map Cli.Replay.listed) := by
  obtain ⟨htold, -, hreplay⟩ := requests_announced Sample.watchedLater_attended
  refine ⟨by decide +kernel, htold, ?_⟩
  have hids : (Sample.replayed.toOption.map fun r => r.agenda.requests.map Prod.fst) = some ["name"] := by
    decide +kernel
  cases hr : Sample.replayed with
  | error e =>
      rw [hr] at hids
      cases hids
  | ok r =>
      rw [hr] at hids
      exact ⟨r, rfl, Option.some.inj hids, hreplay _ _ _ _ _ _ r Sample.profile_opened hr⟩

namespace Sample

/-- A listener that watches the guided form, whose evaluations take a second. -/
def visited : LiveSession :=
  { guided with
    evaluator := fun _ _ => { pause := .time 1000000, answer := .findings [] }
    listeners := { name := "main" } :: guided.listeners }

/-- All fields are validated, and once more when the pause after the edit of the guide is over. -/
def visitedLater : LiveSession := (LiveSession.wait 20 visited.validateAll.1 350000).validateAll.1

end Sample

/-- An edit that overtakes a validation leaves an outdated outcome. The next validation corrects it and shows the field
once more while its evaluation is under way, which looks like a second request. -/
theorem outdated_outcome_announced :
    ((Sample.visitedLater.delivered "main").filterMap FieldState.request?).map Prod.fst = ["city", "city"] ∧
      Sample.visitedLater.agenda.requests.map Prod.fst = ["city"] := by
  decide +kernel

end Formwork
