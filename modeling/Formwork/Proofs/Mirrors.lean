import Formwork.Proofs.Cancelling
import Formwork.Proofs.Effects
import Formwork.Proofs.Gatherings
import Formwork.Proofs.Reachable

/-!
A live session among its tasks is a world, and every step that is carried out with the answers of its listeners
is a list of events of that world.
-/

namespace Formwork

open World

/-- The world is the session among those of its jobs that have not ended. The task that has its turn is no errand
any more. -/
structure LiveSession.Mirrors (l : LiveSession) (running : Option (Nat × Work)) (w : World) : Prop where
  session : w.session = l.session
  errands : w.errands = l.agenda.errands (running.map (·.1))
  orderly : l.agenda.Orderly (running.map (·.1))
  present : ∀ x, running = some x → x ∈ l.agenda.roster
  below : ∀ x ∈ l.agenda.roster, x.1 < l.session.nextTask
  tracked : ∀ k ∈ l.session.tasks, ∀ x ∈ l.agenda.roster, x.1 = k → ∃ j, x.2 = .job j

/-- A history goes on from `ts` to a world that the live session mirrors. -/
def LiveSession.Follows (l : LiveSession) (ts : List Transition) (running : Option (Nat × Work))
    (visits : List Visit) : Prop :=
  ∃ us w, History (ts ++ us) w ∧ w.visits = visits ∧ l.Mirrors running w

namespace LiveSession

variable {l : LiveSession} {running : Option (Nat × Work)} {w : World} {ts : List Transition} {visits : List Visit}

/-! ## Carrying out a step -/

theorem perform_cancels (edit : Editing) (l : LiveSession) (ks : List Nat) :
    (ks.map Effect.cancel).foldl (perform edit) l = l.onAgenda fun a => ks.foldl Agenda.cancel a := by
  induction ks generalizing l with
  | nil => rfl
  | cons k ks ih => exact ih (l.onAgenda fun a => a.cancel k)

/-- What a step asks for is carried out, except that nothing has been shown yet. -/
theorem Mirrors.carried (hm : l.Mirrors running w) {r : Stepped} {cancels : List Nat} {job? : Option Job}
    {shows : List FieldState} (h : l.session.Asks r cancels job? shows) (edit : Editing) :
    ((cancels.map Effect.cancel ++ (job?.map (Effect.start l.session.nextTask)).toList).foldl (perform edit)
      { l with session := r.1 }).Mirrors running (w.absorb r) := by
  obtain ⟨ho, hr, he⟩ := hm.orderly.cancelled_all fun k hk x hx => hm.tracked k (h.known k hk) x hx
  have herrands : (w.absorb r).errands = (cancels.foldl Agenda.cancel l.agenda).errands (running.map (·.1)) ++
      (job?.map fun job => ({ id := l.session.nextTask, job } : Errand)).toList := by
    rw [absorb, cancel_asks h, started_asks h, hm.errands, he]
  rw [List.foldl_append, perform_cancels]
  cases job? with
  | none =>
      refine ⟨rfl, herrands.trans (List.append_nil _), ho, fun x hx => hr ▸ hm.present x hx, fun x hx => ?_,
        fun k hk x hx => ?_⟩
      · exact Nat.lt_of_lt_of_le (hm.below x (hr ▸ hx)) (h.next ▸ Nat.le_add_right _ _)
      · exact hm.tracked k ((h.tracked k hk).resolve_right (by simp)) x (hr ▸ hx)
  | some job =>
      have hn : ∀ t ∈ (cancels.foldl Agenda.cancel l.agenda).tasks, t.id < l.session.nextTask := fun t ht =>
        hm.below (t.id, t.work) (hr ▸ List.mem_map_of_mem ht)
      have hroster : ∀ x ∈ ((cancels.foldl Agenda.cancel l.agenda).start l.session.nextTask (.job job)).roster,
          x ∈ l.agenda.roster ∨ x = (l.session.nextTask, .job job) := fun x hx => by
        rwa [Agenda.roster_start, hr, List.mem_append, List.mem_singleton] at hx
      refine ⟨rfl, herrands.trans (ho.start_errands hn job).symm, ho.start hn _, fun x hx => ?_, fun x hx => ?_,
        fun k hk x hx hi => ?_⟩
      · change x ∈ Agenda.roster (Agenda.start _ _ _)
        rw [Agenda.roster_start]
        exact List.mem_append_left _ (hr ▸ hm.present x hx)
      · change x.1 < r.1.nextTask
        rw [h.next]
        rcases hroster x hx with hx | rfl
        · exact Nat.lt_succ_of_lt (hm.below x hx)
        · exact Nat.lt_succ_self _
      · rcases hroster x hx with hx | rfl
        · rcases h.tracked k hk with hk | ⟨hk, -⟩
          · exact hm.tracked k hk x hx hi
          · have := hm.below x hx
            omega
        · exact ⟨job, rfl⟩

/-- Nothing but the session and the agenda matters. -/
theorem Mirrors.congr (h : l.Mirrors running w) {m : LiveSession} (hs : m.session = l.session)
    (ha : m.agenda = l.agenda) : m.Mirrors running w :=
  ⟨h.session.trans hs.symm, ha ▸ h.errands, ha ▸ h.orderly, ha ▸ h.present, hs ▸ ha ▸ h.below,
    hs ▸ ha ▸ h.tracked⟩

theorem Follows.congr (h : l.Follows ts running visits) {m : LiveSession} (hs : m.session = l.session)
    (ha : m.agenda = l.agenda) : m.Follows ts running visits := by
  obtain ⟨us, w, hw, hv, hm⟩ := h
  exact ⟨us, w, hw, hv, hm.congr hs ha⟩

theorem Follows.orderly (h : l.Follows ts running visits) : l.agenda.Orderly (running.map (·.1)) := by
  obtain ⟨us, w, -, -, hm⟩ := h
  exact hm.orderly

theorem Follows.present {k : Nat} {work : Work} (h : l.Follows ts (some (k, work)) visits) :
    (k, work) ∈ l.agenda.roster := by
  obtain ⟨us, w, -, -, hm⟩ := h
  exact hm.present _ rfl

section

variable {edit : Editing}
  (hedit : ∀ (l : LiveSession) id v, l.Follows ts running visits → (edit l id v).1.Follows ts running visits)

include hedit

theorem editAll_follows (h : l.Follows ts running visits) (edits : List (String × Value)) :
    (editAll edit l edits).Follows ts running visits := by
  induction edits generalizing l with
  | nil => exact h
  | cons e edits ih =>
      have hone := hedit l e.1 e.2 h
      rw [editAll]
      split
      · next m s hr => exact ih (by rwa [hr] at hone)
      · next m f hr => rwa [hr] at hone

theorem notify_follows (h : l.Follows ts running visits) (state : FieldState) :
    (notify edit l state).Follows ts running visits := by
  unfold notify
  generalize l.listeners = listeners
  induction listeners generalizing l with
  | nil => exact h
  | cons listener listeners ih =>
      have hseen : (l.see (.shown l.now listener.name state)).Follows ts running visits := h.congr rfl rfl
      exact ih (editAll_follows hedit hseen _)

theorem shows_follow (h : l.Follows ts running visits) (shows : List FieldState) :
    ((shows.map Effect.show).foldl (perform edit) l).Follows ts running visits := by
  induction shows generalizing l with
  | nil => exact h
  | cons state shows ih => exact ih (notify_follows hedit h state)

/-- A step is carried out, and with it all that the listeners answer to the states that are shown. -/
theorem carryOut_follows {r : Stepped} (h : l.session.Modest r) (hm : l.Mirrors running w)
    {us : List Transition} {w' : World} (hw : History (ts ++ us) w') (hv : w'.visits = visits)
    (hs : w'.session = r.1) (he : w'.errands = (w.absorb r).errands) :
    (carryOut edit l r).Follows ts running visits := by
  obtain ⟨cancels, job?, shows, ha⟩ := h
  have hquiet := hm.carried ha edit
  rw [carryOut, ha.effects, ← List.append_assoc, List.foldl_append]
  exact shows_follow hedit ⟨us, w', hw, hv, hs.trans hquiet.session, he.trans hquiet.errands, hquiet.orderly,
    hquiet.present, hquiet.below, hquiet.tracked⟩ shows

end

theorem editTo_follows (depth : Nat) (h : l.Follows ts running visits) (id : String) (value : Value) :
    (editTo depth l id value).1.Follows ts running visits := by
  induction depth generalizing l id value with
  | zero => exact h
  | succ depth ih =>
      obtain ⟨us, w, hw, hv, hm⟩ := h
      have hstep := hw.step (.edit id value)
      rw [List.append_assoc, hm.session] at hstep
      exact carryOut_follows (fun l id v hl => ih hl id v) (l.session.edit_modest id value) hm hstep hv rfl rfl

theorem edit_follows (h : l.Follows ts running visits) (id : String) (value : Value) :
    (l.edit id value).1.Follows ts running visits := editTo_follows maxDepth h id value

/-- A step that the session takes as an event of its world. -/
theorem apply_follows {step : Session → Stepped} (h : l.session.Modest (step l.session)) (hm : l.Mirrors running w)
    {us : List Transition} {w' : World} (hw : History (ts ++ us) w') (hv : w'.visits = visits)
    (hs : w'.session = (step l.session).1) (he : w'.errands = (w.absorb (step l.session)).errands) :
    (l.apply step).Follows ts running visits :=
  carryOut_follows (fun _ id value hl => edit_follows hl id value) h hm hw hv hs he

/-! ## Walks over the fields -/

theorem visit_follows {v : Visit} (h : l.Follows ts running (v :: visits)) :
    (l.apply v.step).Follows ts running visits := by
  obtain ⟨us, w, hw, hv, hm⟩ := h
  have hstep := hw.step (.visit v visits hv)
  rw [List.append_assoc, hm.session] at hstep
  exact apply_follows (v.step_modest l.session) hm hstep rfl rfl rfl

theorem visits_follow {vs : List Visit} (h : l.Follows ts running vs) :
    (vs.foldl (fun l v => l.apply v.step) l).Follows ts running [] := by
  induction vs generalizing l with
  | nil => exact h
  | cons v vs ih => exact ih (visit_follows h)

theorem recordAll_follows {outcomes : List (String × Outcome)}
    (h : l.Follows ts running (outcomes.map fun o => .outcome o.1 o.2)) :
    (l.recordAll outcomes).Follows ts running [] := by
  have hv := visits_follow h
  rwa [List.foldl_map] at hv

theorem validateAll_follows (h : l.Follows ts running []) : l.validateAll.1.Follows ts running [] := by
  unfold validateAll
  split
  · next outcomes ho =>
      obtain ⟨us, w, hw, hv, hm⟩ := h
      have hstep := hw.step (.validateAll outcomes (hm.session ▸ ho))
      rw [List.append_assoc] at hstep
      refine recordAll_follows ⟨_, _, hstep, ?_, hm.session, hm.errands, hm.orderly, hm.present, hm.below,
        hm.tracked⟩
      rw [hv, List.append_nil]
  · exact h

theorem applyEach_follows (f : String → Visit) (h : l.Follows ts running (l.session.ids.map f)) :
    (l.applyEach fun id => (f id).step).Follows ts running [] := by
  have hv := visits_follow h
  rwa [List.foldl_map] at hv

theorem beginFlush_session (l : LiveSession) : (l.apply Session.beginFlush).session = l.session.beginFlush.1 := by
  rw [apply, carryOut, Session.beginFlush, Session.cancelOf, perform_cancels]
  rfl

/-- The walk over the fields that pause begins. -/
theorem beginFlush_follows (h : l.Follows ts running []) :
    (l.apply Session.beginFlush).Follows ts running (l.session.ids.map .pausing) := by
  obtain ⟨us, w, hw, hv, hm⟩ := h
  have hstep := hw.step (.flush hv)
  rw [List.append_assoc, hm.session] at hstep
  exact apply_follows l.session.beginFlush_modest hm hstep rfl rfl rfl

theorem flushNow_follows (h : l.Follows ts running []) : l.flushNow.Follows ts running [] := by
  have hbegin := beginFlush_follows h
  refine applyEach_follows .pausing ?_
  rw [beginFlush_session]
  exact hbegin

end LiveSession
end Formwork
