import Formwork.Proofs.Results

/-!
The requests of a field and the tasks that carry them out, event by event.
-/

namespace Formwork

namespace World

namespace Transition

/-- The evaluation of a value is requested, under a token. -/
def Requests (t : Transition) (field : String) (task token : Nat) (value : Value) : Prop :=
  .start task (.evaluation field token value) ∈ t.effects

/-- The user of an open session leaves the field without a value. -/
def Blanks (t : Transition) (field : String) : Prop :=
  t.before.session.closed = false ∧ ∃ value, t.event = .edit field value ∧ value.isBlank

/-- The field gets a new token, by a request or because it is blank. -/
def Issues (t : Transition) (field : String) (token : Nat) : Prop :=
  (∃ task value, t.Requests field task token value) ∨
    t.Blanks field ∧ ∃ b, t.after.session.slot? field = some b ∧ b.token = token

/-- The task is the evaluation of a request, and it is about to answer or to end. -/
def Ends (t : Transition) (field : String) (task token : Nat) (requested : Value) (ending : Session.Ending) :
    Prop :=
  t.event = .answer task ending ∧
    ∃ e ∈ t.before.errands, e.id = task ∧ e.job = .evaluation field token requested

/-- An answer is taken over: the field is shown with it. -/
def Commits (t : Transition) (field : String) (task token : Nat) (requested : Value) (found : List Finding) :
    Prop :=
  t.Ends field task token requested (.findings found) ∧ ∃ state, .show state ∈ t.effects

end Transition

variable {w w' : World} {event : Event} {fx : List Effect} {a b : Slot} {field : String}

/-! ## Tokens -/

theorem Change.token_le (h : w.Change a event fx b) : a.token ≤ b.token := by
  cases h with
  | kept token => exact Nat.le_of_eq token.symm
  | cleared | requested => exact Nat.le_succ _
  | committed e => exact Nat.le_of_eq (Session.forget_same a e.id).2.2.1.symm

theorem Change.token_of_start (h : w.Change a event fx b) {task k : Nat} {v : Value}
    (hs : Effect.start task (.evaluation a.field.id k v) ∈ fx) : k = a.token + 1 ∧ k = b.token := by
  cases h with
  | kept _ _ _ quiet | cleared _ _ _ _ quiet => exact absurd hs (quiet task k v)
  | requested _ _ starts => exact ⟨starts task k v hs, starts task k v hs⟩
  | committed => simp at hs

theorem Change.token_of_blank (h : w.Change a event fx b) {v : Value} (he : event = .edit a.field.id v)
    (hc : w.session.closed = false) (hb : v.isBlank) : b.token = a.token + 1 := by
  cases h with
  | kept _ _ _ _ valued => rw [valued v he hc] at hb; cases hb
  | cleared => rfl
  | requested _ hn => exact absurd he (hn v)
  | committed => cases he

/-- The slots of a field before and after an event. -/
theorem Step.change_of_after (hs : w.Step event fx w') (hw : w.Sound) (hb : w'.session.slot? field = some b) :
    ∃ a, w.session.slot? field = some a ∧ a.field.id = field ∧ w.Change a event fx b := by
  obtain ⟨a, ha, hid, h⟩ := hs.alters_of_after hb
  exact ⟨a, ha, hid, h.change hw (hid ▸ ha)⟩

/-! ## Errands -/

theorem Sound.started_absorb (w : World) (s : Stepped) {x : Errand} (hx : x ∈ (w.absorb s).errands) :
    (∃ e ∈ w.errands, e.Later x) ∨ .start x.id x.job ∈ s.2 := by
  rcases mem_absorb.mp hx with ⟨e, he, rfl⟩ | ⟨task, job, hs, rfl⟩
  · exact .inl ⟨e, he, cancel_later s.2 e⟩
  · exact .inr hs

/-- Every task that runs after an event ran before, or is started by the event. -/
theorem Step.errand (hs : w.Step event fx w') {x : Errand} (hx : x ∈ w'.errands) :
    (∃ e ∈ w.errands, e.Later x) ∨ .start x.id x.job ∈ fx := by
  have old (task : Nat) (h : (∃ e ∈ (w.without task).errands, e.Later x) ∨ .start x.id x.job ∈ fx) :
      (∃ e ∈ w.errands, e.Later x) ∨ .start x.id x.job ∈ fx :=
    h.imp_left fun ⟨e, he, hl⟩ => ⟨e, (mem_without.mp he).1, hl⟩
  cases hs with
  | edit | flush | close | visit => exact Sound.started_absorb _ _ hx
  | validateAll | validateNone | otherTask => exact .inl ⟨x, hx, .refl x⟩
  | «begin» e =>
      obtain ⟨d, hd, rfl⟩ := List.mem_map.mp hx
      refine .inl ⟨d, hd, ?_⟩
      split
      · exact ⟨rfl, rfl, fun h => h⟩
      · exact .refl d
  | fieldPauseOver e | answer e => exact old e.id (Sound.started_absorb _ _ hx)
  | formPauseOver e | vanish e => exact .inl ⟨x, (mem_without.mp hx).1, .refl x⟩

/-- Evaluations are requested for fields of the form only. -/
theorem Step.slot_of_start (hs : w.Step event fx w') {task k : Nat} {v : Value}
    (h : Effect.start task (.evaluation field k v) ∈ fx) : ∃ a, w.session.slot? field = some a := by
  cases hs with
  | edit id value =>
      rcases w.session.edit_cases id value with ⟨he, -⟩ | ⟨a, -, -, he⟩
      · rw [he] at h
        cases h
      · exact absurd h (Change.edited_quiet he task field k v)
  | flush => simp [Session.beginFlush] at h
  | close => simp [Session.close] at h
  | validateAll | validateNone | «begin» | formPauseOver | vanish | otherTask => cases h
  | visit d =>
      cases d with
      | valued id =>
          rcases w.session.dispatchIfValued_cases id with ⟨he, -⟩ | ⟨a, ha, -, he⟩ <;> rw [Visit.step, he] at h
          · cases h
          · rw [Session.dispatch_some ha] at h
            obtain ⟨rfl, -⟩ := Change.starts_request h
            exact ⟨a, Session.slot?_id ha ▸ ha⟩
      | pausing id =>
          rcases w.session.dispatchIfPausing_cases id with ⟨he, -⟩ | ⟨a, ha, -, he⟩ <;> rw [Visit.step, he] at h
          · cases h
          · rw [Session.dispatch_untimed ha] at h
            obtain ⟨rfl, -⟩ := Change.starts_request ((List.mem_append.mp h).resolve_left (by simp))
            exact ⟨a, Session.slot?_id ha ▸ ha⟩
      | outcome id o =>
          rcases w.session.recordOutcome_cases id o with he | ⟨a, -, he⟩ <;> rw [Visit.step, he] at h <;> simp at h
  | fieldPauseOver e id =>
      cases ha : w.session.slot? id with
      | none => simp [Session.fieldTimerFires, ha] at h
      | some a =>
          rw [Session.fieldTimerFires_some ha, Session.dispatch_untimed ha] at h
          obtain ⟨rfl, -⟩ := Change.starts_request h
          exact ⟨a, Session.slot?_id ha ▸ ha⟩
  | answer e id token requested ending =>
      cases ha : w.session.slot? id with
      | none => rw [Session.settle_none ha] at h; cases h
      | some a =>
          have hset := Session.settle_some ha e.id token requested ending
          generalize w.session.settle e.id id token requested ending = s at hset h
          cases hset <;> simp at h

theorem Step.of_answer {task : Nat} {ending : Session.Ending} (hs : w.Step event fx w')
    (he : event = .answer task ending) {e : Errand} (hm : e ∈ w.errands) (hi : e.id = task) {token : Nat}
    {requested : Value} (hj : e.job = .evaluation field token requested) (hw : w.Sound) :
    fx = (w.session.settle task field token requested ending).2 ∧
      w' = (w.without task).absorb (w.session.settle task field token requested ending) := by
  cases hs with
  | answer d id k v ending' _ hd hk =>
      obtain ⟨ht, rfl⟩ := Event.answer.inj he
      obtain rfl := hw.eq_of_id hm hd (hi.trans ht.symm)
      obtain ⟨rfl, rfl, rfl⟩ := Job.evaluation.inj (hj.symm.trans hk)
      subst ht
      exact ⟨rfl, rfl⟩
  | _ => cases he

/-- After an evaluation has answered, none runs under its token any more. -/
theorem Transition.Ends.gone {t : Transition} {task token : Nat} {requested : Value} {ending : Session.Ending}
    (h : t.Ends field task token requested ending) (hs : t.before.Step t.event t.effects t.after)
    (hw : t.before.Sound) : ∀ x ∈ t.after.errands, ∀ v, x.job ≠ .evaluation field token v := by
  obtain ⟨hev, e, he, hi, hj⟩ := h
  obtain ⟨-, hafter⟩ := hs.of_answer hev he hi hj hw
  intro x hx v hk
  rw [hafter] at hx
  rcases Sound.started_absorb _ _ hx with ⟨d, hd, hl⟩ | hstart
  · obtain ⟨hd, hne⟩ := mem_without.mp hd
    exact hne (hi ▸ hw.token_inj d hd e he field token v requested (hl.job ▸ hk) hj)
  · cases ha : t.before.session.slot? field with
    | none =>
        rw [Session.settle_none ha] at hstart
        cases hstart
    | some a =>
        have hset := Session.settle_some ha task token requested ending
        generalize t.before.session.settle task field token requested ending = s at hset hstart
        cases hset <;> simp at hstart

/-- An answer that is taken over is the one to the last request, for the value that the field has. -/
theorem Transition.Commits.current {t : Transition} {task token : Nat} {requested : Value}
    {found : List Finding} (h : t.Commits field task token requested found)
    (hs : t.before.Step t.event t.effects t.after) (hw : t.before.Sound) :
    ∃ a, t.before.session.slot? field = some a ∧ a.token = token ∧ a.value.eqv requested := by
  obtain ⟨⟨hev, e, he, hi, hj⟩, state, hshow⟩ := h
  obtain ⟨hfx, -⟩ := hs.of_answer hev he hi hj hw
  rw [hfx] at hshow
  cases ha : t.before.session.slot? field with
  | none =>
      rw [Session.settle_none ha] at hshow
      cases hshow
  | some a =>
      have hset := Session.settle_some ha task token requested (.findings found)
      generalize t.before.session.settle task field token requested (.findings found) = s at hset hshow
      cases hset with
      | dropped => cases hshow
      | committed _ hcur =>
          obtain ⟨ht, hv⟩ := Session.isCurrent_iff.mp hcur
          obtain ⟨-, hvalue, htoken, -⟩ := Session.forget_same a task
          exact ⟨a, rfl, (ht.trans htoken).symm, hvalue ▸ hv⟩

end World

end Formwork
