import Formwork.Proofs.Announcements
import Formwork.Proofs.Moves
import Formwork.Proofs.Phases
import Formwork.Proofs.Undisturbed

/-!
What a listener hears of a live session, whatever the other listeners answer: it is told once of every pending field
that is shown, and so hears of exactly the requests that are issued in the turns of the session and while all its fields
are validated.
-/

namespace Formwork

namespace Agenda

variable {a : Agenda} {k : Nat} {t u : Task}

theorem roster_putTask (hd : (a.roster.map (·.1)).Nodup) (ht : t ∈ a.tasks) (hi : u.id = t.id) (hw : u.work = t.work) :
    (a.putTask u).roster = a.roster := by
  rw [roster_ids] at hd
  refine roster_map _ fun x hx => ?_
  split
  · next h =>
      obtain rfl := List.inj_on_of_nodup_map hd hx ht (h.trans hi)
      exact ⟨hi, hw⟩
  · exact ⟨rfl, rfl⟩

theorem roster_cancelSimple (hd : (a.roster.map (·.1)).Nodup) (k : Nat) : (a.cancelSimple k).roster = a.roster := by
  unfold cancelSimple
  split
  · rfl
  · next t ht =>
      have hmem := (task?_mem ht).1
      split
      · exact roster_putTask hd hmem rfl rfl
      · exact roster_putTask hd hmem rfl rfl
      · exact roster_putTask hd hmem rfl rfl
      · rfl
      · rfl

/-- Cancelling changes nothing of which tasks there are. -/
theorem roster_cancel (hd : (a.roster.map (·.1)).Nodup) (k : Nat) : (a.cancel k).roster = a.roster := by
  have simple : ∀ (ks : List Nat) {b : Agenda}, b.roster = a.roster →
      (ks.foldl cancelSimple b).roster = a.roster := by
    intro ks
    induction ks with
    | nil => exact fun h => h
    | cons k ks ih => exact fun h => ih ((roster_cancelSimple (h ▸ hd) k).trans h)
  unfold cancel
  split
  · rfl
  · next t ht =>
      split
      · exact simple _ (roster_putTask hd (task?_mem ht).1 rfl rfl)
      · exact roster_cancelSimple hd k

theorem roster_cancels (hd : (a.roster.map (·.1)).Nodup) (ks : List Nat) :
    (ks.foldl Agenda.cancel a).roster = a.roster := by
  induction ks generalizing a with
  | nil => rfl
  | cons k ks ih =>
      have hone := roster_cancel hd k
      exact (ih (hone ▸ hd)).trans hone

end Agenda

namespace LiveSession

variable {l m n : LiveSession} {p : String → Bool} {told told' asked asked' : List (String × Value)} {r : Stepped}
  {edit : Editing} {ts : List World.Transition} {running : Option (Nat × Work)} {vs : List Visit} {t : Task} {w : Wait}

/-- What is heard of pending fields by the listeners whose names are picked out. -/
def announced (l : LiveSession) (p : String → Bool) : List (String × Value) := l.sightings.filterMap fun
  | .shown _ listener state => if p listener then state.request? else none
  | .mark _ => none

theorem announced_name (l : LiveSession) (name : String) :
    l.announced (fun x => x = name) = (l.delivered name).filterMap FieldState.request? := by
  rw [announced, delivered, List.filterMap_filterMap]
  refine List.filterMap_congr fun x _ => ?_
  cases x with
  | shown time listener state => by_cases hn : listener = name <;> simp [hn]
  | mark => rfl

/-- One listener is picked out, the tasks are numbered, and a form without advice is left alone. -/
structure Ready (p : String → Bool) (l : LiveSession) : Prop where
  once : l.listeners.countP (fun x => p x.name) = 1
  distinct : (l.agenda.roster.map (·.1)).Nodup
  below : ∀ x ∈ l.agenda.roster, x.1 < l.session.nextTask
  hushed : l.session.Hushed

/-- In between, the listener that is picked out has heard of some requests, and some were issued. -/
structure Hears (l : LiveSession) (p : String → Bool) (told asked : List (String × Value)) (m : LiveSession) :
    Prop where
  ready : m.Ready p
  told : m.announced p = l.announced p ++ told
  asked : m.agenda.requests = l.agenda.requests ++ asked
  waits : ∀ k w, (k, .wait w) ∈ m.agenda.roster → (k, .wait w) ∈ l.agenda.roster
  verified : l.session.Verified → m.session.Verified
  validator : m.session.validator = l.session.validator

theorem Hears.trans (h : l.Hears p told asked m) (h' : m.Hears p told' asked' n) :
    l.Hears p (told ++ told') (asked ++ asked') n where
  ready := h'.ready
  told := by rw [h'.told, h.told, List.append_assoc]
  asked := by rw [h'.asked, h.asked, List.append_assoc]
  waits k w hx := h.waits k w (h'.waits k w hx)
  verified hv := h'.verified (h.verified hv)
  validator := h'.validator.trans h.validator

/-- The session is as it was, and so are its tasks. -/
theorem Ready.hears (h : l.Ready p) (hs : m.session = l.session) (hr : m.agenda.roster = l.agenda.roster)
    (hl : m.listeners = l.listeners) (ht : m.announced p = l.announced p ++ told) : l.Hears p told [] m where
  ready := ⟨hl ▸ h.once, hr ▸ h.distinct, hs ▸ hr ▸ h.below, hs ▸ h.hushed⟩
  told := ht
  asked := by rw [Agenda.requests, Agenda.requests, hr, List.append_nil]
  waits _ _ hx := hr ▸ hx
  verified hv := hs ▸ hv
  validator := by rw [hs]

theorem Ready.hears_nothing (h : l.Ready p) : l.Hears p [] [] l :=
  h.hears rfl rfl rfl (List.append_nil _).symm

theorem Ready.see_shown (h : l.Ready p) (time : Nat) (x : Listener) (state : FieldState) :
    l.Hears p (if p x.name then state.request?.toList else []) [] (l.see (.shown time x.name state)) := by
  refine h.hears rfl rfl rfl ?_
  rw [announced, announced, see, List.filterMap_append]
  by_cases hx : p x.name
  · cases hq : state.request? <;> simp [hx, hq]
  · simp [hx]

/-- The job of a step is started. -/
theorem Ready.started (h : l.Ready p) (hf : l.session.Faithful r) {job? : Option Job} {a : Agenda}
    (hr : a.roster = l.agenda.roster ++ (job?.map fun j => (l.session.nextTask, Work.job j)).toList)
    (hn : r.1.nextTask = l.session.nextTask + job?.toList.length) :
    l.Hears p [] ((job?.map fun j => (l.session.nextTask, Work.job j)).toList.filterMap fun x => x.2.request?)
      { l with session := r.1, agenda := a } := by
  refine ⟨⟨h.once, ?_, fun x hx => ?_, hf.hushed h.hushed⟩, (List.append_nil _).symm, ?_, fun k w hx => ?_, hf.verified,
    hf.validator⟩
  · change (a.roster.map (·.1)).Nodup
    cases job? with
    | none => simpa [hr] using h.distinct
    | some j =>
        rw [hr, List.map_append]
        refine List.nodup_append.mpr ⟨h.distinct, List.nodup_singleton _, fun k hk n hn he => ?_⟩
        obtain ⟨x, hx, rfl⟩ := List.mem_map.mp hk
        exact absurd (he.trans (List.mem_singleton.mp hn)) (Nat.ne_of_lt (h.below x hx))
  · change x.1 < r.1.nextTask
    rw [hn]
    rcases List.mem_append.mp (hr ▸ hx) with hx | hx
    · exact Nat.lt_add_right _ (h.below x hx)
    · cases job? with
      | none => cases hx
      | some j => exact List.mem_singleton.mp hx ▸ Nat.lt_succ_self _
  · rw [Agenda.requests, hr, List.filterMap_append]
    rfl
  · refine (List.mem_append.mp (hr ▸ hx)).resolve_right fun hx => ?_
    cases job? with
    | none => cases hx
    | some j => cases List.mem_singleton.mp hx

/-! ## Steps and what the listeners answer -/

section

variable (hedit : ∀ (l : LiveSession) id v, l.Ready p → l.Hears p [] [] (edit l id v).1)

include hedit

theorem editAll_hears (h : l.Ready p) (edits : List (String × Value)) :
    l.Hears p [] [] (editAll edit l edits) := by
  induction edits generalizing l with
  | nil => exact h.hears_nothing
  | cons e edits ih =>
      have hone := hedit l e.1 e.2 h
      rw [editAll]
      split
      · next m s hr =>
          rw [hr] at hone
          exact hone.trans (ih hone.ready)
      · next m f hr => rwa [hr] at hone

/-- Every listener in turn is told a state, and may answer with edits. -/
theorem tellAll_hears (h : l.Ready p) (listeners : List Listener) (state : FieldState) :
    l.Hears p (List.replicate (listeners.countP fun x => p x.name) state.request?.toList).flatten []
      (listeners.foldl (fun l x => (tell edit l x state).1) l) := by
  induction listeners generalizing l with
  | nil => exact h.hears_nothing
  | cons x listeners ih =>
      have hseen := h.see_shown l.now x state
      have hone := hseen.trans (editAll_hears hedit hseen.ready (x.respond state))
      have hall := hone.trans (ih hone.ready)
      have htold : (if p x.name then state.request?.toList else []) ++ [] ++
          (List.replicate (listeners.countP fun x => p x.name) state.request?.toList).flatten =
            (List.replicate ((x :: listeners).countP fun x => p x.name) state.request?.toList).flatten := by
        by_cases hx : p x.name <;> simp [hx, List.replicate_succ]
      rw [htold] at hall
      exact hall

theorem notify_hears (h : l.Ready p) (state : FieldState) :
    l.Hears p state.request?.toList [] (notify edit l state) := by
  have hall := tellAll_hears hedit h l.listeners state
  rw [h.once, List.replicate_one, List.flatten_singleton] at hall
  exact hall

theorem shows_hear (h : l.Ready p) (shows : List FieldState) :
    l.Hears p (shows.filterMap FieldState.request?) [] ((shows.map Effect.show).foldl (perform edit) l) := by
  induction shows generalizing l with
  | nil => exact h.hears_nothing
  | cons state shows ih =>
      have hone := notify_hears hedit h state
      have hall := hone.trans (ih hone.ready)
      have htold : state.request?.toList ++ shows.filterMap FieldState.request? =
          (state :: shows).filterMap FieldState.request? := by
        cases hq : state.request? <;> simp [hq]
      rw [htold] at hall
      exact hall

/-- A step is carried out: what it requests is heard, and the answers of the listeners add nothing. -/
theorem carryOut_hears (h : l.Ready p) (hm : l.session.Modest r) (hf : l.session.Faithful r) :
    l.Hears p (Effect.announced r.2) (Effect.requests r.2) (carryOut edit l r) := by
  obtain ⟨cancels, job?, shows, ha⟩ := hm
  have hshows : Effect.shows r.2 = shows := by
    rw [ha.effects]
    cases job? <;> simp
  have hstarts : Effect.starts r.2 = (job?.map fun j => (l.session.nextTask, Work.job j)).toList := by
    rw [ha.effects]
    cases job? <;> simp
  have hcancels := Agenda.roster_cancels h.distinct cancels
  rw [carryOut, Effect.announced, hshows, ha.effects, List.foldl_append, List.foldl_append, perform_cancels,
    ← ha.effects]
  have hmid : l.Hears p [] (Effect.requests r.2) (((job?.map (Effect.start l.session.nextTask)).toList).foldl
      (perform edit) ({ l with session := r.1 }.onAgenda fun a => cancels.foldl Agenda.cancel a)) := by
    rw [Effect.requests, hstarts]
    cases job? with
    | none => exact h.started hf (hcancels.trans (List.append_nil _).symm) ha.next
    | some job =>
        refine h.started hf ?_ ha.next
        rw [← hcancels]
        exact Agenda.roster_start ..
  have hall := hmid.trans (shows_hear hedit hmid.ready shows)
  rw [List.append_nil] at hall
  exact hall

end

theorem editTo_hears (depth : Nat) (h : l.Ready p) (id : String) (value : Value) :
    l.Hears p [] [] (editTo depth l id value).1 := by
  induction depth generalizing l id value with
  | zero => exact h.hears_nothing
  | succ depth ih =>
      obtain ⟨hf, hnone⟩ := Session.edit_faithful h.hushed id value
      have hall := carryOut_hears (fun l id v hl => ih hl id v) h (l.session.edit_modest id value) hf
      rw [hf.announced, hnone] at hall
      exact hall

theorem edit_hears (h : l.Ready p) (id : String) (value : Value) :
    l.Hears p [] [] (l.edit id value).1 :=
  editTo_hears maxDepth h id value

/-! ## Turns -/

theorem Follows.ready (h : l.Follows ts running vs) (ho : l.listeners.countP (fun x => p x.name) = 1) :
    l.Ready p := by
  obtain ⟨us, w, hw, -, hm⟩ := h
  refine ⟨ho, ?_, hm.below, fun hadv c hc => ?_⟩
  · rw [Agenda.roster_ids]
    exact hm.orderly.distinct
  · rw [← hm.session] at hadv hc
    exact (hw.silent hadv).idle c hc

/-- Only a form with advice has jobs. -/
theorem Follows.advised (h : l.Follows ts none []) (ht : t ∈ l.agenda.tasks) {j : Job} (hj : t.work = .job j)
    (hd : t.stage ≠ .done) : l.session.schema.advisoryEnabled := by
  obtain ⟨us, w, hw, -, hm⟩ := h
  by_contra hadv
  rw [← hm.session] at hadv
  have herrand := Agenda.mem_errands_of_job ht hj hd
  have hnone : l.agenda.errands none = [] := hm.errands.symm.trans (hw.silent (Bool.eq_false_iff.mpr hadv)).errands
  rw [hnone] at herrand
  cases herrand

/-- In between, the listener has heard of exactly the requests that were issued. -/
def KeepsUp (l : LiveSession) (p : String → Bool) (m : LiveSession) : Prop := ∃ asked, l.Hears p asked asked m

namespace KeepsUp

theorem start (h : l.Ready p) : l.KeepsUp p l := ⟨[], h.hears_nothing⟩

theorem trans (h : l.KeepsUp p m) (h' : m.KeepsUp p n) : l.KeepsUp p n := by
  obtain ⟨asked, h⟩ := h
  obtain ⟨asked', h'⟩ := h'
  exact ⟨asked ++ asked', h.trans h'⟩

theorem ready (h : l.KeepsUp p m) : m.Ready p := by
  obtain ⟨asked, h⟩ := h
  exact h.ready

theorem verified (h : l.KeepsUp p m) (hv : l.session.Verified) : m.session.Verified := by
  obtain ⟨asked, h⟩ := h
  exact h.verified hv

theorem validator (h : l.KeepsUp p m) : m.session.validator = l.session.validator := by
  obtain ⟨asked, h⟩ := h
  exact h.validator

theorem waits (h : l.KeepsUp p m) {k : Nat} (hx : (k, .wait w) ∈ m.agenda.roster) :
    (k, .wait w) ∈ l.agenda.roster := by
  obtain ⟨asked, h⟩ := h
  exact h.waits k w hx

theorem advised (h : l.KeepsUp p m) (hadv : l.session.schema.advisoryEnabled) :
    m.session.schema.advisoryEnabled := by
  rwa [Session.schema, h.validator]

theorem step (h : l.KeepsUp p m) {step : Session → Stepped} (hm : m.session.Modest (step m.session))
    (hf : m.session.Faithful (step m.session)) : l.KeepsUp p (m.apply step) := by
  have hears := carryOut_hears (fun l id v hl => edit_hears hl id v) h.ready hm hf
  rw [hf.announced] at hears
  exact h.trans ⟨_, hears⟩

theorem agenda (h : l.KeepsUp p m) (f : Agenda → Agenda) (hr : (f m.agenda).roster = m.agenda.roster) :
    l.KeepsUp p (m.onAgenda f) :=
  h.trans ⟨[], h.ready.hears rfl hr rfl (List.append_nil _).symm⟩

theorem mark (h : l.KeepsUp p m) (recorded : Bool) (stage : Stage) (field : String) (value : Value) :
    l.KeepsUp p (m.addMark recorded stage field value) := by
  unfold addMark
  split
  · refine h.trans ⟨[], h.ready.hears rfl rfl rfl ?_⟩
    simp [announced, see]
  · exact h

theorem finish (h : l.KeepsUp p m) (k : Nat) : l.KeepsUp p (m.finish k) := h.agenda _ (Agenda.roster_finish ..)

theorem sleep (h : l.KeepsUp p m) (k : Nat) (pause : Pause) : l.KeepsUp p (m.onAgenda fun a => a.sleep k pause) :=
  h.agenda _ (Agenda.roster_sleep ..)

theorem gather (h : l.KeepsUp p m) (k : Nat) (children : List Nat) :
    l.KeepsUp p (m.onAgenda fun a => a.gather k children) := h.agenda _ (Agenda.roster_gather ..)

theorem awaitRest (h : l.KeepsUp p m) (k : Nat) : l.KeepsUp p (m.awaitRest k) := by
  simp only [LiveSession.awaitRest]
  split
  · exact h.finish k
  · exact h.gather k _

/-- A walk over the fields. -/
theorem visits (h : l.KeepsUp p m) (f : String → Visit)
    (hf : ∀ {n}, l.KeepsUp p n → ∀ id, n.session.Faithful ((f id).step n.session)) :
    l.KeepsUp p (m.applyEach fun id => (f id).step) := by
  have key : ∀ (ids : List String) {m : LiveSession}, l.KeepsUp p m →
      l.KeepsUp p (ids.foldl (fun m id => m.apply (f id).step) m) := by
    intro ids
    induction ids with
    | nil => exact fun h => h
    | cons id ids ih => exact fun {m} h => ih (h.step ((f id).step_modest m.session) (hf h id))
  exact key m.session.ids h

theorem flushNow (h : l.KeepsUp p m) : l.KeepsUp p m.flushNow :=
  (h.step m.session.beginFlush_modest m.session.beginFlush_faithful).visits .pausing
    fun hn id => Session.dispatchIfPausing_faithful hn.ready.hushed id

section

variable (hadv : l.session.schema.advisoryEnabled)

include hadv

theorem settle (h : l.KeepsUp p m) (task : Nat) (id : String) (token : Nat) (requested : Value)
    (ending : Session.Ending) : l.KeepsUp p (m.apply fun s => s.settle task id token requested ending) :=
  h.step (m.session.settle_modest ..) (Session.settle_faithful (h.advised hadv) ..)

theorem answer (h : l.KeepsUp p m) (task : Nat) (id : String) (token : Nat) (requested : Value) :
    l.KeepsUp p (m.answer task id token requested) :=
  ((h.mark ..).settle hadv ..).finish task

theorem begin (h : l.KeepsUp p m) (task : Nat) (j : Job) : l.KeepsUp p (m.begin task j) := by
  cases j with
  | fieldTimer | formTimer => exact h.sleep task _
  | evaluation id token requested =>
      simp only [LiveSession.begin]
      split
      · exact (h.mark ..).answer hadv ..
      · exact (h.mark ..).sleep task _

theorem resume (h : l.KeepsUp p m) (task : Nat) (j : Job) : l.KeepsUp p (m.resume task j) := by
  cases j with
  | fieldTimer id =>
      exact (h.step (m.session.fieldTimerFires_modest id)
        (Session.fieldTimerFires_faithful (h.advised hadv) id)).finish task
  | formTimer =>
      have hfired := h.step m.session.formTimerFires_modest m.session.formTimerFires_faithful
      exact (hfired.visits .valued fun hn id => Session.dispatchIfValued_faithful (hn.advised hadv) id).finish task
  | evaluation id token requested => exact h.answer hadv ..

theorem abandon (h : l.KeepsUp p m) (task : Nat) (stage : TaskStage) (j : Job) :
    l.KeepsUp p (m.abandon task stage j) := by
  cases j with
  | fieldTimer | formTimer => exact h.finish task
  | evaluation id token requested =>
      rw [LiveSession.abandon]
      split
      · exact h.finish task
      · exact ((h.mark ..).settle hadv ..).finish task

end

theorem beginWait (h : l.KeepsUp p m) (task : Nat) (hw : w ≠ .close) : l.KeepsUp p (m.beginWait task w) := by
  cases w with
  | idle => exact h.awaitRest task
  | flush => exact h.flushNow.awaitRest task
  | close => exact absurd rfl hw
  | sleep micros => exact h.sleep task _

theorem resumeWait (h : l.KeepsUp p m) (task : Nat) (hw : w ≠ .close) : l.KeepsUp p (m.resumeWait task w) := by
  cases w with
  | idle | flush => exact h.awaitRest task
  | close => exact absurd rfl hw
  | sleep micros => exact h.finish task

theorem close (h : l.KeepsUp p m) : l.KeepsUp p (m.apply Session.close) :=
  h.step m.session.close_modest m.session.close_faithful

end KeepsUp

/-- Requests were issued and heard of, and then the listeners may have been removed. -/
def Overhears (l : LiveSession) (p : String → Bool) (m : LiveSession) : Prop :=
  ∃ asked, m.announced p = l.announced p ++ asked ∧ m.agenda.requests = l.agenda.requests ++ asked

theorem KeepsUp.overhears (h : l.KeepsUp p m) : l.Overhears p m := by
  obtain ⟨asked, h⟩ := h
  exact ⟨asked, h.told, h.asked⟩

/-- A call to close ends, and the listeners are removed. -/
theorem KeepsUp.endClose (h : l.KeepsUp p m) (k : Nat) :
    l.Overhears p (m.endClose k) ∧ (m.endClose k).agenda.isDone k :=
  ⟨(h.finish k).overhears, Agenda.isDone_finish_self ..⟩

/-- The first turn of a call to close. -/
theorem KeepsUp.beginClose (h : l.KeepsUp p m) (k : Nat) : l.KeepsUp p (m.beginWait k .close) ∨
    l.Overhears p (m.beginWait k .close) ∧ (m.beginWait k .close).agenda.isDone k := by
  simp only [LiveSession.beginWait]
  split
  · exact .inr (h.close.endClose k)
  · exact .inl (h.close.gather k _)

/-- A turn of a task: the listener keeps up, or the task is a call to close that ends. -/
theorem Ready.takeTurn (h : l.Ready p) (hadv : ∀ j, t.work = .job j → l.session.schema.advisoryEnabled) :
    l.KeepsUp p (l.takeTurn t) ∨
      t.work = .wait .close ∧ l.Overhears p (l.takeTurn t) ∧ (l.takeTurn t).agenda.isDone t.id := by
  have hstart := KeepsUp.start h
  unfold LiveSession.takeTurn
  cases hwork : t.work with
  | job j =>
      have hon := hadv j hwork
      refine .inl ?_
      cases t.cancelled with
      | true => exact hstart.abandon hon ..
      | false =>
          cases t.stage with
          | fresh => exact hstart.begin hon ..
          | _ => exact hstart.resume hon ..
  | wait w =>
      cases t.cancelled with
      | true => exact .inl (hstart.finish _)
      | false =>
          by_cases hw : w = .close
          · subst hw
            cases t.stage with
            | fresh => exact (hstart.beginClose t.id).imp_right fun hend => ⟨rfl, hend⟩
            | _ => exact .inr ⟨rfl, hstart.endClose t.id⟩
          · cases t.stage with
            | fresh => exact .inl (hstart.beginWait t.id hw)
            | _ => exact .inl (hstart.resumeWait t.id hw)

/-- The next turn. -/
theorem Follows.turn_keepsUp (h : l.Follows ts none []) (ho : l.listeners.countP (fun x => p x.name) = 1)
    (ht : l.turn? = some m) : l.KeepsUp p m ∨
      ∃ k, (k, .wait .close) ∈ l.agenda.roster ∧ l.Overhears p m ∧ m.agenda.isDone k := by
  have hready := h.ready ho
  unfold turn? at ht
  cases hturns : l.agenda.turns with
  | nil => simp [hturns] at ht
  | cons turn rest =>
      simp only [hturns, Option.some.injEq] at ht
      subst ht
      have hpop : l.KeepsUp p (l.onAgenda fun a => { a with turns := rest }) := (KeepsUp.start hready).agenda _ rfl
      cases turn with
      | report g => exact .inl (hpop.agenda _ (Agenda.roster_report ..))
      | task id =>
          have hdue : id ∈ l.agenda.due none := by simp [Agenda.due, hturns, Turn.task?]
          obtain ⟨t, ht⟩ := h.orderly.task_of_due hdue
          obtain ⟨hmem, rfl⟩ := Agenda.task?_mem ht
          have htask : (l.onAgenda fun a => { a with turns := rest }).agenda.task? t.id = some t := ht
          have hgoing : t.stage ≠ .done := by
            have hstage := h.orderly.ready t.id hdue
            rw [h.orderly.stage_of_mem hmem] at hstage
            intro hd
            simp [hd] at hstage
          simp only [htask]
          rcases hpop.ready.takeTurn (t := t) fun j hj => h.advised hmem hj hgoing with hk | ⟨hwork, hover, hdone⟩
          · exact .inl (hpop.trans hk)
          · exact .inr ⟨t.id, hwork ▸ List.mem_map_of_mem hmem, hover, hdone⟩

/-! ## Validations of all fields -/

/-- While all fields are validated, every outcome that is recorded is still the one for the value of its field: no
listener that was shown one of the outcomes has edited a field whose turn was still to come. -/
def InTime (l : LiveSession) : Prop := ∀ outcomes, l.session.outcomes = .ok outcomes →
  ∀ done o rest, outcomes = done ++ o :: rest → ∀ c, (l.recordAll done).session.slot? o.1 = some c →
    l.session.validator.validateField o.1 c.value = .ok o.2

theorem recordAll_append (l : LiveSession) (xs ys : List (String × Outcome)) :
    l.recordAll (xs ++ ys) = (l.recordAll xs).recordAll ys := List.foldl_append

/-- Outcomes are recorded one by one. -/
theorem KeepsUp.recordAll (hv : l.session.Verified) (done : List (String × Outcome)) {rest : List (String × Outcome)}
    (hin : ∀ before o after, rest = before ++ o :: after → ∀ c,
      ((l.recordAll done).recordAll before).session.slot? o.1 = some c →
        l.session.validator.validateField o.1 c.value = .ok o.2)
    (h : l.KeepsUp p (l.recordAll done))
    (hf : (l.recordAll done).Follows ts none (rest.map fun o => .outcome o.1 o.2)) :
    l.KeepsUp p (l.recordAll (done ++ rest)) := by
  induction rest generalizing done with
  | nil => rwa [List.append_nil]
  | cons o rest ih =>
      have hnext := visit_follows hf
      have hrecord : (l.recordAll done).apply (Visit.outcome o.1 o.2).step = l.recordAll (done ++ [o]) := by
        rw [recordAll_append]
        rfl
      have hstep : l.KeepsUp p (l.recordAll (done ++ [o])) := by
        rw [← hrecord]
        refine h.step (Visit.step_modest ..) ?_
        obtain ⟨us, w, hw, -, hm⟩ := hf
        refine Session.recordOutcome_faithful (h.verified hv) (fun c hc hp => ?_) fun c hc => ?_
        · exact (hw.sound.slot c (hm.session ▸ hc)).coherent.valued (by rw [hp]; decide)
        · rw [h.validator]
          exact hin [] o rest rfl c hc
      rw [hrecord] at hnext
      rw [List.append_cons]
      refine ih (done ++ [o]) (fun before q after he c hc => ?_) hstep hnext
      rw [recordAll_append] at hc
      exact hin (o :: before) q after (congrArg (o :: ·) he) c hc

theorem Follows.validateAll_keepsUp (h : l.Follows ts none []) (ho : l.listeners.countP (fun x => p x.name) = 1)
    (hv : l.session.Verified) (hin : l.InTime) : l.KeepsUp p l.validateAll.1 := by
  have hready := h.ready ho
  unfold validateAll
  split
  · next outcomes houtcomes =>
      obtain ⟨us, w, hw, hvisits, hm⟩ := h
      have hstep := hw.step (.validateAll outcomes (hm.session ▸ houtcomes))
      rw [List.append_assoc] at hstep
      have hbegun : (l.recordAll []).Follows ts none (outcomes.map fun o => .outcome o.1 o.2) := by
        refine ⟨_, _, hstep, ?_, hm.session, hm.errands, hm.orderly, hm.present, hm.below, hm.tracked⟩
        rw [hvisits, List.append_nil]
      exact KeepsUp.recordAll hv [] (hin outcomes houtcomes) (KeepsUp.start hready) hbegun
  · exact .start hready

end LiveSession
end Formwork
