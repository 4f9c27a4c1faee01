import Formwork.Proofs.Listening

/-!
What a step comes to when the listeners only listen: its tasks go on the agenda, and every listener is told every state.
-/

namespace Formwork

namespace Effect

def shown? : Effect → Option FieldState
  | «show» state => some state
  | _ => none

/-- The states that are to be shown. -/
def shows (effects : List Effect) : List FieldState := effects.filterMap shown?

@[simp] theorem shows_nil : shows [] = [] := rfl

@[simp] theorem shows_start (task : Nat) (job : Job) (effects : List Effect) :
    shows (.start task job :: effects) = shows effects := rfl

@[simp] theorem shows_cancel (task : Nat) (effects : List Effect) :
    shows (.cancel task :: effects) = shows effects := rfl

@[simp] theorem shows_show (state : FieldState) (effects : List Effect) :
    shows (.show state :: effects) = state :: shows effects := rfl

@[simp] theorem shows_append (xs ys : List Effect) : shows (xs ++ ys) = shows xs ++ shows ys := List.filterMap_append

@[simp] theorem shows_cancelOf (task : Option Nat) : shows (Session.cancelOf task) = [] := by
  cases task <;> rfl

def start? : Effect → Option (Nat × Work)
  | start task job => some (task, .job job)
  | _ => none

/-- The tasks that are to be started. -/
def starts (effects : List Effect) : List (Nat × Work) := effects.filterMap start?

@[simp] theorem starts_nil : starts [] = [] := rfl

@[simp] theorem starts_start (task : Nat) (job : Job) (effects : List Effect) :
    starts (.start task job :: effects) = (task, .job job) :: starts effects := rfl

@[simp] theorem starts_cancel (task : Nat) (effects : List Effect) :
    starts (.cancel task :: effects) = starts effects := rfl

@[simp] theorem starts_show (state : FieldState) (effects : List Effect) :
    starts (.show state :: effects) = starts effects := rfl

@[simp] theorem starts_append (xs ys : List Effect) : starts (xs ++ ys) = starts xs ++ starts ys :=
  List.filterMap_append

@[simp] theorem starts_cancelOf (task : Option Nat) : starts (Session.cancelOf task) = [] := by
  cases task <;> rfl

@[simp] theorem starts_cancels (ks : List Nat) : starts (ks.map .cancel) = [] := by
  induction ks with
  | nil => rfl
  | cons k ks ih => exact ih

@[simp] theorem starts_shows (states : List FieldState) : starts (states.map .show) = [] := by
  induction states with
  | nil => rfl
  | cons state states ih => exact ih

end Effect

namespace Agenda

def heed (a : Agenda) : Effect → Agenda
  | .start task job => a.start task (.job job)
  | .cancel task => a.cancel task
  | .show _ => a

theorem heed_now (a : Agenda) (e : Effect) : (a.heed e).now = a.now := by
  cases e with
  | start task job => rfl
  | cancel task => exact cancels_now [task] a
  | «show» state => rfl

theorem heeds_now (a : Agenda) (effects : List Effect) : (effects.foldl heed a).now = a.now := by
  induction effects generalizing a with
  | nil => rfl
  | cons e effects ih => exact (ih _).trans (a.heed_now e)

theorem heeds_cancels (a : Agenda) (ks : List Nat) :
    (ks.map Effect.cancel).foldl heed a = ks.foldl Agenda.cancel a := by
  induction ks generalizing a with
  | nil => rfl
  | cons k ks ih => exact ih (a.cancel k)

theorem heeds_shows (a : Agenda) (states : List FieldState) : (states.map Effect.show).foldl heed a = a := by
  induction states with
  | nil => rfl
  | cons state states ih => exact ih

/-- A step among jobs starts its job and changes nothing else of which tasks there are. -/
theorem Orderly.roster_heeds {a : Agenda} {running : Option Nat} {s : Session} {r : Stepped} (h : a.Orderly running)
    (hj : ∀ k ∈ s.tasks, ∀ x ∈ a.roster, x.1 = k → ∃ j, x.2 = .job j) (hr : s.Modest r) :
    (r.2.foldl heed a).roster = a.roster ++ Effect.starts r.2 := by
  obtain ⟨cancels, job?, shows, ha⟩ := hr
  have hroster := (h.cancelled_all fun k hk => hj k (ha.known k hk)).2.1
  rw [ha.effects, List.foldl_append, List.foldl_append, heeds_cancels, heeds_shows]
  cases job? with
  | none => simpa using hroster
  | some job =>
      have hstarts : Effect.starts (cancels.map .cancel ++
          (((some job).map (Effect.start s.nextTask)).toList ++ shows.map .show)) = [(s.nextTask, .job job)] := by
        simp
      rw [hstarts, ← hroster]
      exact roster_start ..

end Agenda

namespace LiveSession

variable {l m : LiveSession}

def told (l : LiveSession) (state : FieldState) : List Sighting :=
  l.listeners.map fun x => .shown l.now x.name state

theorem Calm.notify_eq (h : l.Calm) (edit : Editing) (state : FieldState) :
    LiveSession.notify edit l state = { l with sightings := l.sightings ++ l.told state } := by
  have key : ∀ (xs : List Listener), (∀ x ∈ xs, ∀ state, x.respond state = []) → ∀ m : LiveSession,
      xs.foldl (fun m x => (tell edit m x state).1) m =
        { m with sightings := m.sightings ++ xs.map fun x => .shown m.now x.name state } := by
    intro xs
    induction xs with
    | nil => simp
    | cons x xs ih =>
        intro hx m
        have hone : (tell edit m x state).1 = m.see (.shown m.now x.name state) := by
          rw [tell, hx x (List.mem_cons_self ..), editAll]
        rw [List.foldl_cons, hone, ih fun y hy => hx y (List.mem_cons_of_mem _ hy)]
        simp [see, now]
  exact key l.listeners h l

theorem Calm.carryOut_eq (h : l.Calm) (edit : Editing) (r : Stepped) :
    LiveSession.carryOut edit l r =
      { l with
        session := r.1
        agenda := r.2.foldl Agenda.heed l.agenda
        sightings := l.sightings ++ (Effect.shows r.2).flatMap l.told } := by
  have key : ∀ (effects : List Effect) (m : LiveSession), m.Calm → effects.foldl (perform edit) m =
      { m with
        agenda := effects.foldl Agenda.heed m.agenda
        sightings := m.sightings ++ (Effect.shows effects).flatMap m.told } := by
    intro effects
    induction effects with
    | nil => simp
    | cons e effects ih =>
        intro m hm
        cases e with
        | start task job =>
            rw [List.foldl_cons, ih (perform edit m (.start task job)) hm]
            rfl
        | cancel task =>
            have htold : (perform edit m (.cancel task)).told = m.told := by
              funext state
              have hnow : (perform edit m (.cancel task)).now = m.now := m.agenda.heed_now (.cancel task)
              rw [told, told, hnow]
              rfl
            rw [List.foldl_cons, ih (perform edit m (.cancel task)) hm, htold]
            rfl
        | «show» state =>
            have hone : perform edit m (.show state) = { m with sightings := m.sightings ++ m.told state } :=
              hm.notify_eq edit state
            rw [List.foldl_cons, hone, ih { m with sightings := m.sightings ++ m.told state } hm]
            simp only [List.append_assoc]
            rfl
  exact key r.2 { l with session := r.1 } h

theorem Calm.apply_eq (h : l.Calm) (step : Session → Stepped) :
    l.apply step =
      { l with
        session := (step l.session).1
        agenda := (step l.session).2.foldl Agenda.heed l.agenda
        sightings := l.sightings ++ (Effect.shows (step l.session).2).flatMap l.told } :=
  h.carryOut_eq (editTo maxDepth) (step l.session)

theorem Calm.edit_eq (h : l.Calm) (id : String) (value : Value) :
    (l.edit id value).1 =
      { l with
        session := (l.session.edit id value).1.1
        agenda := (l.session.edit id value).1.2.foldl Agenda.heed l.agenda
        sightings := l.sightings ++ (Effect.shows (l.session.edit id value).1.2).flatMap l.told } :=
  h.carryOut_eq (editTo 99) (l.session.edit id value).1

end LiveSession
end Formwork
