import Formwork.Proofs.Moves
import Formwork.View
import Mathlib.Data.List.Induction

/-!
Listeners are in sync: every step that changes the state of a field shows the new state, so what a listener was told
last is what the session holds.
-/

namespace Formwork

namespace FieldState

/-- What is known of a field after some states were told. -/
def updated (told : List FieldState) (state : FieldState) : FieldState :=
  told.foldl (fun state new => if new.field.id = state.field.id then new else state) state

theorem updated_append (xs ys : List FieldState) (state : FieldState) :
    state.updated (xs ++ ys) = (state.updated xs).updated ys := List.foldl_append ..

theorem updated_singleton (new state : FieldState) :
    state.updated [new] = if new.field.id = state.field.id then new else state := rfl

theorem updated_id (told : List FieldState) (state : FieldState) : (state.updated told).field.id = state.field.id := by
  induction told generalizing state with
  | nil => rfl
  | cons new told ih =>
      refine (ih _).trans ?_
      by_cases h : new.field.id = state.field.id
      · simp [h]
      · simp [h]

theorem updated_eq (told : List FieldState) (state : FieldState) :
    state.updated told = ((told.filter fun new => new.field.id = state.field.id).getLast?).getD state := by
  induction told using List.reverseRecOn with
  | nil => rfl
  | append_singleton told new ih =>
      rw [updated_append, updated_singleton, updated_id, List.filter_append]
      by_cases h : new.field.id = state.field.id
      · simp [h]
      · simp [h, ih]

/-- A state that is told once or more. -/
theorem updated_replicate (new state : FieldState) (n : Nat) :
    state.updated (List.replicate (n + 1) new) = state.updated [new] := by
  induction n with
  | zero => rfl
  | succ n ih =>
      rw [List.replicate_succ', updated_append, ih, updated_singleton, updated_singleton]
      by_cases h : new.field.id = state.field.id <;> simp [h]

end FieldState

namespace Session

variable {s : Session} {a b : Slot} {id : String} {r : Stepped} {step : Session → Stepped}

/-! ## Steps of a session -/

/-- The states after a step are those before it, but for those that it shows. -/
def Tells (s : Session) (r : Stepped) : Prop :=
  r.1.states = s.states.map (FieldState.updated (Effect.shows r.2))

theorem states_putSlot (s : Session) (b : Slot) : (s.putSlot b).states = s.states.map (FieldState.updated [b.state]) := by
  rw [states, states, putSlot, List.map_map, List.map_map]
  refine List.map_congr_left fun t _ => ?_
  by_cases h : t.field.id = b.field.id
  · simp [FieldState.updated, Slot.state, h]
  · simp [FieldState.updated, Slot.state, h, Ne.symm h]

theorem tells_put (hslots : r.1.slots = (s.putSlot b).slots) (hshows : Effect.shows r.2 = [b.state]) :
    s.Tells r := by
  rw [Tells, hshows, ← states_putSlot, states, hslots]
  rfl

theorem tells_nothing (hstates : r.1.states = s.states) (hshows : Effect.shows r.2 = []) : s.Tells r := by
  have hid : FieldState.updated [] = id := rfl
  rw [Tells, hshows, hid, List.map_id, hstates]

/-- A slot is replaced by one that looks the same. -/
theorem states_putSlot_same (hd : s.ids.Nodup) (ha : s.slot? b.field.id = some a) (hb : b.state = a.state) :
    (s.putSlot b).states = s.states := by
  rw [states_putSlot, hb]
  have hfield : b.field.id = a.field.id := congrArg (fun st : FieldState => st.field.id) hb
  have hsame : ∀ state ∈ s.states, FieldState.updated [a.state] state = state := by
    intro state hm
    obtain ⟨c, hc, rfl⟩ := List.mem_map.mp hm
    rw [FieldState.updated_singleton]
    split
    · next h =>
        rw [List.inj_on_of_nodup_map hd (slot?_mem ha) hc h]
    · rfl
  exact (List.map_congr_left hsame).trans (List.map_id _)

theorem Edited.tells {value : Value} {o : Outcome} (ho : s.validator.validateField a.field.id value = .ok o)
    (h : Edited s a value r) : s.Tells r := by
  cases h with
  | broken e he => cases he.symm.trans ho
  | cleared | unadvised | pausedAlone | pausedTogether => exact tells_put rfl (by simp)

theorem edit_tells {value : Value} {state : FieldState} (h : (s.edit id value).2 = .ok state) :
    s.Tells (s.edit id value).1 := by
  obtain ⟨a, o, ha, ho, he⟩ := edit_taken h
  obtain rfl := slot?_id ha
  exact he.tells ho

theorem shows_request (cancel : Bool) (inflight : Option Nat) (task : Nat) (job : Job) (state : FieldState) :
    Effect.shows ((if cancel then cancelOf inflight else []) ++ [Effect.start task job, Effect.show state]) = [state] := by
  cases cancel <;> simp

theorem dispatch_tells (s : Session) (id : String) : s.Tells (s.dispatch id) := by
  cases ha : s.slot? id with
  | none => exact dispatch_none ha ▸ tells_nothing rfl rfl
  | some a =>
      rw [dispatch_some ha]
      exact tells_put rfl (shows_request ..)

/-- A request after which the field has no timer any more; the timer may be cancelled on the way. -/
theorem dispatch_untimed_tells (ha : s.slot? id = some a) (task : Option Nat) :
    s.Tells (((s.putSlot { a with timer := none }).dispatch id).1,
      cancelOf task ++ ((s.putSlot { a with timer := none }).dispatch id).2) := by
  rw [dispatch_untimed ha]
  refine tells_put rfl ?_
  rw [Effect.shows_append, Effect.shows_cancelOf, List.nil_append, shows_request]

theorem fieldTimerFires_tells (s : Session) (id : String) : s.Tells (s.fieldTimerFires id) := by
  cases ha : s.slot? id with
  | none => simpa [fieldTimerFires, ha] using tells_nothing (r := (s, [])) rfl rfl
  | some a =>
      rw [fieldTimerFires_some ha]
      exact dispatch_untimed_tells ha none

theorem visit_tells (v : Visit) (s : Session) : s.Tells (v.step s) := by
  cases v with
  | valued id =>
      rcases s.dispatchIfValued_cases id with ⟨he, -⟩ | ⟨a, -, -, he⟩ <;> rw [Visit.step, he]
      · exact tells_nothing rfl rfl
      · exact s.dispatch_tells id
  | pausing id =>
      rcases s.dispatchIfPausing_cases id with ⟨he, -⟩ | ⟨a, ha, -, he⟩ <;> rw [Visit.step, he]
      · exact tells_nothing rfl rfl
      · exact dispatch_untimed_tells ha a.timer
  | outcome id o =>
      rcases s.recordOutcome_cases id o with he | ⟨a, -, he⟩ <;> rw [Visit.step, he]
      · exact tells_nothing rfl rfl
      · exact tells_put rfl rfl

theorem settle_tells (hd : s.ids.Nodup) (task : Nat) (id : String) (token : Nat) (requested : Value) (ending : Ending) :
    s.Tells (s.settle task id token requested ending) := by
  cases ha : s.slot? id with
  | none => exact settle_none ha .. ▸ tells_nothing rfl rfl
  | some a =>
      have hs := settle_some ha task token requested ending
      generalize s.settle task id token requested ending = r at hs
      cases hs with
      | dropped _ h =>
          have hforget : s.slot? (forget a task).field.id = some a := by rw [forget_field, slot?_id ha, ha]
          obtain ⟨-, hv, -, hp, hadv, -⟩ := forget_same a task
          refine tells_nothing (states_putSlot_same hd hforget ?_) rfl
          rw [Slot.state, Slot.state, forget_field, hv, hp, hadv]
          unfold forget
          split <;> rfl
      | committed found h => exact tells_put rfl rfl
      | fellBack h => exact tells_put rfl rfl

theorem Inner.tells (h : Inner step) (hd : s.ids.Nodup) : s.Tells (step s) := by
  cases h with
  | fieldTimer id => exact s.fieldTimerFires_tells id
  | formTimer => exact tells_nothing rfl rfl
  | flush => exact tells_nothing rfl (Effect.shows_cancelOf _)
  | visit v => exact visit_tells v s
  | settle task id token requested ending => exact settle_tells hd ..

end Session

namespace LiveSession

variable {l m n : LiveSession} {x : Listener} {name id : String}

/-- The states that a listener was told. -/
def delivered (l : LiveSession) (name : String) : List FieldState := l.sightings.filterMap fun
  | .shown _ listener state => if listener = name then some state else none
  | .mark _ => none

/-- The state of a field that a listener was told last. -/
def lastShown (l : LiveSession) (name id : String) : Option FieldState :=
  ((l.delivered name).filter fun state => state.field.id = id).getLast?

/-- What a listener was told in between is what has changed. -/
structure Informs (l m : LiveSession) : Prop where
  listeners : ∀ x ∈ l.listeners, x ∈ m.listeners
  told : ∀ x ∈ l.listeners, ∃ told, m.delivered x.name = l.delivered x.name ++ told ∧
    m.session.states = l.session.states.map (FieldState.updated told)

theorem Informs.refl (l : LiveSession) : l.Informs l :=
  ⟨fun _ hx => hx, fun _ _ => ⟨[], (List.append_nil _).symm, (List.map_id _).symm⟩⟩

theorem Informs.trans (h : l.Informs m) (h' : m.Informs n) : l.Informs n := by
  refine ⟨fun x hx => h'.listeners x (h.listeners x hx), fun x hx => ?_⟩
  obtain ⟨told, hd, hs⟩ := h.told x hx
  obtain ⟨told', hd', hs'⟩ := h'.told x (h.listeners x hx)
  refine ⟨told ++ told', ?_, ?_⟩
  · rw [hd', hd, List.append_assoc]
  · rw [hs', hs, List.map_map]
    exact List.map_congr_left fun state _ => (FieldState.updated_append ..).symm

/-- Nothing was told, and no state has changed. -/
theorem Informs.quiet (hl : ∀ x ∈ l.listeners, x ∈ m.listeners) (hd : ∀ name, m.delivered name = l.delivered name)
    (hs : m.session.states = l.session.states) : l.Informs m :=
  ⟨hl, fun x _ => ⟨[], (hd x.name).trans (List.append_nil _).symm, hs.trans (List.map_id _).symm⟩⟩

/-- A listener is told a state once for each time that it was added. -/
theorem delivered_told (hx : x ∈ l.listeners) (state : FieldState) :
    ∃ k, ({ l with sightings := l.told state } : LiveSession).delivered x.name = List.replicate (k + 1) state := by
  have key : ∀ (xs : List Listener), ({ l with sightings := xs.map fun y => .shown l.now y.name state } :
      LiveSession).delivered x.name = List.replicate (xs.countP fun y => y.name = x.name) state := by
    intro xs
    induction xs with
    | nil => rfl
    | cons y ys ih =>
        rw [delivered] at ih
        by_cases hy : y.name = x.name
        · simp [delivered, hy, ih, List.replicate_succ]
        · simp [delivered, hy, ih]
  have hpos : 0 < l.listeners.countP fun y => y.name = x.name := List.countP_pos_iff.mpr ⟨x, hx, by simp⟩
  obtain ⟨k, hk⟩ := Nat.exists_eq_add_of_le' hpos
  exact ⟨k, hk ▸ key l.listeners⟩

theorem updated_told (hx : x ∈ l.listeners) (shows : List FieldState) : FieldState.updated
    (({ l with sightings := shows.flatMap l.told } : LiveSession).delivered x.name) = FieldState.updated shows := by
  have hcons : ∀ new shows, ({ l with sightings := (new :: shows).flatMap l.told } : LiveSession).delivered x.name =
      ({ l with sightings := l.told new } : LiveSession).delivered x.name ++
        ({ l with sightings := shows.flatMap l.told } : LiveSession).delivered x.name :=
    fun new shows => List.filterMap_append
  induction shows with
  | nil => rfl
  | cons new shows ih =>
      funext state
      obtain ⟨k, hk⟩ := delivered_told hx new
      rw [hcons, FieldState.updated_append, hk, FieldState.updated_replicate, ih]
      rfl

theorem Calm.carryOut_informs (h : l.Calm) (edit : Editing) {r : Stepped} (hr : l.session.Tells r) :
    l.Informs (LiveSession.carryOut edit l r) := by
  rw [h.carryOut_eq]
  refine ⟨fun _ hx => hx, fun x hx => ⟨_, List.filterMap_append, ?_⟩⟩
  exact (updated_told hx (Effect.shows r.2)).symm ▸ hr

theorem Acts.informs (h : l.Acts m) (hc : l.Calm) (hd : l.session.ids.Nodup) :
    l.Informs m ∧ m.session.ids = l.session.ids := by
  induction h with
  | nothing => exact ⟨.refl l, rfl⟩
  | @mark m _ recorded stage field value ih =>
      obtain ⟨hi, hids⟩ := ih
      refine ⟨hi.trans ?_, (congrArg Session.ids (m.addMark_same recorded stage field value).1).trans hids⟩
      unfold addMark
      split
      · refine .quiet (fun _ hx => hx) (fun name => ?_) rfl
        simp [see, delivered]
      · exact .refl m
  | agenda _ f hr ih => exact ⟨ih.1.trans (.quiet (fun _ hx => hx) (fun _ => rfl) rfl), ih.2⟩
  | @step m h step hs ih =>
      obtain ⟨hi, hids⟩ := ih
      have hstep := (h.calm hc).carryOut_informs (editTo maxDepth) (hs.tells (s := m.session) (hids ▸ hd))
      refine ⟨hi.trans hstep, ?_⟩
      rw [(h.calm hc).apply_eq]
      exact (hs.alike m.session).ids.trans hids

end LiveSession
end Formwork
