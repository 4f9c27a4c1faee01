import Formwork.Proofs.Loads
import Formwork.Proofs.Settings
import Formwork.Proofs.Twins

/-!
Listeners that only listen: a step shows them states and goes on. What a turn starts then is known beforehand: one
evaluation for each field at most, and none at all when an evaluation answers.
-/

namespace Formwork

/-- The job is an evaluation, which starts no other job. -/
def Job.Light : Job → Prop
  | .evaluation .. => True
  | _ => False

namespace Session

variable {s : Session} {id : String} {task : Nat} {j : Job}

theorem dispatch_light (h : .start task j ∈ (s.dispatch id).2) : j.Light := by
  cases ha : s.slot? id with
  | none =>
      rw [dispatch_none ha] at h
      cases h
  | some a =>
      rw [dispatch_some ha] at h
      rcases List.mem_append.mp h with h | h
      · split at h <;> simp at h
      · obtain ⟨-, rfl⟩ : task = s.nextTask ∧ j = _ := by simpa using h
        trivial

theorem fieldTimerFires_light (h : .start task j ∈ (s.fieldTimerFires id).2) : j.Light := by
  cases ha : s.slot? id with
  | none => simp [fieldTimerFires, ha] at h
  | some a =>
      rw [fieldTimerFires_some ha] at h
      exact dispatch_light h

theorem settle_shows (s : Session) (task : Nat) (id : String) (token : Nat) (requested : Value) (ending : Ending) :
    ∃ shows : List FieldState, (s.settle task id token requested ending).2 = shows.map .show := by
  cases ha : s.slot? id with
  | none => exact ⟨[], by rw [settle_none ha]; rfl⟩
  | some a =>
      have hs := settle_some ha task token requested ending
      generalize s.settle task id token requested ending = r at hs
      cases hs with
      | dropped => exact ⟨[], rfl⟩
      | committed | fellBack => exact ⟨[_], rfl⟩

end Session

theorem Visit.light (v : Visit) {s : Session} {task : Nat} {j : Job} (h : .start task j ∈ (v.step s).2) :
    j.Light := by
  cases v with
  | valued id =>
      rcases s.dispatchIfValued_cases id with ⟨he, -⟩ | ⟨a, -, -, he⟩ <;> rw [Visit.step, he] at h
      · cases h
      · exact Session.dispatch_light h
  | pausing id =>
      rcases s.dispatchIfPausing_cases id with ⟨he, -⟩ | ⟨a, -, -, he⟩ <;> rw [Visit.step, he] at h
      · cases h
      · exact Session.dispatch_light ((List.mem_append.mp h).resolve_left (by simp))
  | outcome id o =>
      rcases s.recordOutcome_cases id o with he | ⟨a, -, he⟩ <;> rw [Visit.step, he] at h
      · cases h
      · simp at h

namespace LiveSession

variable {l m : LiveSession} {running : Option (Nat × Work)} {ts : List World.Transition} {w : World} {n k c d : Nat}

/-- The listeners do not answer. -/
def Calm (l : LiveSession) : Prop := ∀ x ∈ l.listeners, ∀ state, x.respond state = []

/-! ## What is shown to listeners that only listen -/

theorem Calm.notify (h : l.Calm) (edit : Editing) (state : FieldState) :
    ∃ sightings, notify edit l state = { l with sightings } := by
  have key : ∀ (xs : List Listener), (∀ x ∈ xs, ∀ state, x.respond state = []) → ∀ m : LiveSession, ∃ sightings,
      xs.foldl (fun l x => editAll edit (l.see (.shown l.now x.name state)) (x.respond state)) m =
        { m with sightings } := by
    intro xs
    induction xs with
    | nil => exact fun _ m => ⟨m.sightings, rfl⟩
    | cons x xs ih =>
        intro hx m
        obtain ⟨sightings, he⟩ := ih (fun y hy => hx y (List.mem_cons_of_mem _ hy)) (m.see (.shown m.now x.name state))
        refine ⟨sightings, ?_⟩
        rw [List.foldl_cons, hx x (List.mem_cons_self ..), editAll, he]
        rfl
  exact key l.listeners h l

theorem Calm.shows (h : l.Calm) (edit : Editing) (states : List FieldState) :
    ∃ sightings, (states.map Effect.show).foldl (perform edit) l = { l with sightings } := by
  induction states generalizing l with
  | nil => exact ⟨l.sightings, rfl⟩
  | cons state states ih =>
      obtain ⟨seen, hs⟩ := h.notify edit state
      obtain ⟨sightings, he⟩ := ih (l := { l with sightings := seen }) h
      refine ⟨sightings, ?_⟩
      rw [List.map_cons, List.foldl_cons, perform, hs, he]

/-- What a turn has started so far, beside the task whose turn it is. -/
structure Spends (n k c : Nat) (l m : LiveSession) : Prop where
  listeners : m.listeners = l.listeners
  ids : m.session.ids = l.session.ids
  others : m.agenda.others n k ≤ l.agenda.others n k + c

theorem Calm.apply (h : l.Calm) (hm : l.Mirrors running w) {step : Session → Stepped}
    (hs : l.session.Modest (step l.session)) (hids : (step l.session).1.ids = l.session.ids)
    (hj : ∀ {task j}, .start task j ∈ (step l.session).2 → j.Light) :
    Spends n k 3 l (l.apply step) := by
  obtain ⟨cancels, job?, shows, ha⟩ := hs
  have hcalm : (l.tended (step l.session).1 cancels l.session.nextTask job?).Calm := h
  obtain ⟨sightings, he⟩ := hcalm.shows (editTo maxDepth) shows
  have hcancels := hm.orderly.others_cancels (n := n) (k := k) fun i hi => hm.tracked i (ha.known i hi)
  unfold LiveSession.apply
  rw [carryOut_asks (editTo maxDepth) ha.effects, he]
  refine ⟨rfl, hids, ?_⟩
  cases job? with
  | none => exact hcancels.trans (Nat.le_add_right _ _)
  | some j =>
      have hmem : Effect.start l.session.nextTask j ∈ (step l.session).2 := by simp [ha.effects]
      have hlight := hj hmem
      have hone : (Work.job j).weight n * 3 = 3 := by
        cases j with
        | fieldTimer | formTimer => cases hlight
        | evaluation => rfl
      refine (Agenda.others_start ..).trans ?_
      change _ + (Work.job j).weight n * 3 ≤ _
      rw [hone]
      exact Nat.add_le_add_right hcancels 3

theorem Spends.refl (n k : Nat) (l : LiveSession) : Spends n k 0 l l := ⟨rfl, rfl, Nat.le_refl _⟩

theorem Spends.trans {p : LiveSession} (h : Spends n k c l m) (h' : Spends n k d m p) :
    Spends n k (c + d) l p :=
  ⟨h'.listeners.trans h.listeners, h'.ids.trans h.ids, by have ho := h.others; have ho' := h'.others; omega⟩

theorem Spends.calm (h : Spends n k c l m) (hc : l.Calm) : m.Calm := fun x hx => hc x (h.listeners ▸ hx)

theorem Calm.visits (hc : l.Calm) {visits : List Visit} (h : l.Follows ts running visits) :
    Spends n k (3 * visits.length) l (visits.foldl (fun l v => l.apply v.step) l) := by
  induction visits generalizing l with
  | nil => exact ⟨rfl, rfl, Nat.le_refl _⟩
  | cons v visits ih =>
      have hnext := visit_follows h
      obtain ⟨us, w, hw, hv, hm⟩ := h
      have hone := hc.apply (n := n) (k := k) hm (v.step_modest l.session) (v.step_alike l.session).ids v.light
      have hrest := hone.trans (ih (hone.calm hc) hnext)
      rw [List.length_cons, Nat.mul_succ, Nat.add_comm]
      exact hrest

theorem Calm.walk (hc : l.Calm) (f : String → Visit) (h : l.Follows ts running (l.session.ids.map f)) :
    Spends n k (3 * l.session.ids.length) l (l.applyEach fun id => (f id).step) := by
  have hvisits := hc.visits (n := n) (k := k) h
  rwa [List.foldl_map, List.length_map] at hvisits

theorem Calm.flushNow (hc : l.Calm) (h : l.Follows ts running []) :
    Spends n k (3 + 3 * l.session.ids.length) l l.flushNow := by
  have hbegin := beginFlush_follows h
  obtain ⟨us, w, hw, hv, hm⟩ := h
  have hspent : Spends n k 3 l (l.apply Session.beginFlush) :=
    hc.apply hm l.session.beginFlush_modest rfl (by simp [Session.beginFlush])
  rw [← hspent.ids] at hbegin ⊢
  exact hspent.trans ((hspent.calm hc).walk .pausing hbegin)

/-- Nothing has changed but states and what has been seen. -/
structure Still (l m : LiveSession) : Prop where
  listeners : m.listeners = l.listeners
  ids : m.session.ids = l.session.ids
  agenda : m.agenda = l.agenda

theorem Still.spends (h : l.Still m) : Spends n k 0 l m := ⟨h.listeners, h.ids, by rw [h.agenda]; exact Nat.le_refl _⟩

/-- The answer of an evaluation starts and cancels nothing. -/
theorem Calm.settle (h : l.Calm) (task : Nat) (id : String) (token : Nat) (requested : Value)
    (ending : Session.Ending) : l.Still (l.apply fun s => s.settle task id token requested ending) := by
  obtain ⟨shows, hshows⟩ := l.session.settle_shows task id token requested ending
  have heffects : (l.session.settle task id token requested ending).2 = ([] : List Nat).map .cancel ++
      (((none : Option Job).map (Effect.start task)).toList ++ shows.map .show) := hshows
  have hcalm : (l.tended (l.session.settle task id token requested ending).1 [] task none).Calm := h
  obtain ⟨sightings, he⟩ := hcalm.shows (editTo maxDepth) shows
  unfold LiveSession.apply
  rw [carryOut_asks (editTo maxDepth) heffects, he]
  exact ⟨rfl, (l.session.settle_alike task id token requested ending).ids, rfl⟩

end LiveSession
end Formwork
