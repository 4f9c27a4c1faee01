import Formwork.Proofs.Convergence
import Formwork.Proofs.PendingFields

/-!
A field is pending only as long as the evaluation of its last request runs, unless the answer came when the field had a
value that is not equal to the one that was evaluated: the number that is none, or a value whose check broke off.
-/

namespace Formwork

open World Session

namespace World.Transition

variable {t : Transition} {field : String} {task token : Nat} {v : Value}

/-- The evaluator answers with findings or a failure, unless it is cancelled. -/
def Answers (t : Transition) : Prop := ∀ e ∈ t.before.errands, t.event = .answer e.id .cancelled → e.cancelled

/-- The check of an edit breaks off, and the field keeps the value. -/
def BreaksOff (t : Transition) (field : String) (v : Value) : Prop :=
  t.event = .edit field v ∧ ∃ e, t.before.session.validator.validateField field v = .error e

/-- Whether the evaluator answers, computed. -/
def answers (t : Transition) : Bool :=
  match t.event with
  | .answer task .cancelled => t.before.errands.all fun e => e.id ≠ task || e.cancelled
  | _ => true

theorem answers_of_answers (h : t.answers) : t.Answers := by
  intro e he hev
  rw [answers, hev] at h
  simpa using List.all_eq_true.mp h e he

end World.Transition

/-- The answer to a request came when the field had a value that is not equal to the one that was evaluated. -/
def Missed (ts : List Transition) (field : String) (task token : Nat) (v : Value) : Prop :=
  ∃ t ∈ ts, ∃ ending a, t.Ends field task token v ending ∧ t.before.session.slot? field = some a ∧
    a.value.eqv v = false ∧ (a.value.isNaN ∨ ∃ u ∈ ts, u.BreaksOff field a.value)

namespace Slot

/-- The last request of the field, and the value that it has had since. -/
structure LastRequest (ts : List Transition) (c : Slot) (task : Nat) (v : Value) : Prop where
  made : ∃ t ∈ ts, t.Requests c.field.id task c.token v
  held : c.value = v ∨ ∃ t ∈ ts, t.BreaksOff c.field.id c.value

/-- The evaluation of a request is under way and will answer. -/
structure Runs (w : World) (c : Slot) (task : Nat) (v : Value) : Prop where
  inflight : c.inflight = some task
  errand : ∃ e ∈ w.errands, e.id = task ∧ e.job = .evaluation c.field.id c.token v ∧ e.cancelled = false

/-- What the answer to its last request makes of a field that has the value that was evaluated. A pending field does
not see it cancelled. -/
def Reached (a b : Slot) : Ending → Prop
  | .findings found => b.phase = .resolved ∧ b.advisory = ⟨.resolved, found⟩ ∧ b.resolved = ⟨.resolved, found⟩
  | .failed => b.advisory = a.resolved ∧ b.resolved = a.resolved ∧
      b.phase = if a.resolved.status = .resolved then .resolved else .idle
  | .cancelled => a.phase ≠ .pending

end Slot

variable {ts : List Transition} {w w' : World} {event : Event} {fx : List Effect} {t : Transition} {a b c : Slot}

theorem Missed.mono {field : String} {task token : Nat} {v : Value} (h : Missed ts field task token v)
    (t : Transition) :
    Missed (ts ++ [t]) field task token v := by
  obtain ⟨u, hu, ending, a, he, ha, hv, hwhy⟩ := h
  exact ⟨u, List.mem_append_left _ hu, ending, a, he, ha, hv,
    hwhy.imp_right fun ⟨x, hx, hb⟩ => ⟨x, List.mem_append_left _ hx, hb⟩⟩

/-- One event: the request of a pending field is carried on, or it misses. -/
theorem Slot.waits_step (hs : w.Pends event fx w' b)
    (h : ∀ a, w.session.slot? b.field.id = some a → a.phase = .pending →
      ∃ task v, a.LastRequest ts task v ∧ (a.Runs w task v ∨ Missed ts a.field.id task a.token v))
    (hans : Transition.Answers ⟨w, event, fx, w'⟩) :
    ∃ task v, b.LastRequest (ts ++ [⟨w, event, fx, w'⟩]) task v ∧
      (b.Runs w' task v ∨ Missed (ts ++ [⟨w, event, fx, w'⟩]) b.field.id task b.token v) := by
  have hlast : ⟨w, event, fx, w'⟩ ∈ ts ++ [(⟨w, event, fx, w'⟩ : Transition)] :=
    List.mem_append_right _ (List.mem_singleton_self _)
  rcases hs with ⟨a, hs⟩ | hs
  · obtain ⟨task, v, ⟨⟨u, hu, hmade⟩, hheld⟩, hrun⟩ := h a hs.before hs.phase
    have hid : a.field.id = b.field.id := slot?_id hs.before
    rw [hid] at hmade hheld hrun
    refine ⟨task, v, ⟨⟨u, List.mem_append_left _ hu, hs.token ▸ hmade⟩, ?_⟩, ?_⟩
    · rcases hs.value with he | ⟨hev, e, he⟩
      · rw [he]
        exact hheld.imp_right fun ⟨x, hx, hb⟩ => ⟨x, List.mem_append_left _ hx, hb⟩
      · exact .inr ⟨_, hlast, hev, e, he⟩
    · rw [hs.token]
      rcases hrun with ⟨hi, e, he, rfl, hj, hc⟩ | hmiss
      · rw [hid] at hj
        rcases hs.running e he v hj hi hc with ⟨⟨x, hx, hxi, hxj, hxc⟩, hbi⟩ | ⟨ending, rfl, hend⟩
        · exact .inl ⟨hbi, x, hx, hxi, hs.token ▸ hxj.trans hj, hxc⟩
        · rcases hend with rfl | hv
          · rw [hans e he rfl] at hc
            cases hc
          · refine .inr ⟨_, hlast, ending, a, ⟨rfl, e, he, rfl, hj⟩, hs.before, hv, ?_⟩
            refine hheld.imp (fun hav => ?_) fun ⟨x, hx, hb⟩ => ⟨x, List.mem_append_left _ hx, hb⟩
            subst hav
            exact Bool.of_not_eq_false fun hn => by rw [Value.eqv_self_iff.mpr hn] at hv; cases hv
      · exact .inr (hmiss.mono _)
  · exact ⟨_, _, ⟨⟨_, hlast, hs.start⟩, .inl rfl⟩, .inl ⟨hs.inflight, _, hs.errand, rfl, rfl, rfl⟩⟩

theorem History.waits (h : History ts w) (hopen : w.session.closed = false) (hans : ∀ t ∈ ts, t.Answers) :
    ∀ c ∈ w.session.slots, c.phase = .pending →
      ∃ task v, c.LastRequest ts task v ∧ (c.Runs w task v ∨ Missed ts c.field.id task c.token v) := by
  induction h with
  | opened hs =>
      intro c hc hp
      obtain ⟨-, -, hf⟩ := hs.fresh
      rw [(hf.slots c hc).phase] at hp
      cases hp
  | @step ts w w' event fx hh hs ih =>
      intro b hb hp
      have hcl : w.session.closed = false := by
        refine Bool.eq_false_iff.mpr fun hc => ?_
        rw [hs.alike.closed hc] at hopen
        cases hopen
      have ih := ih hcl fun t ht => hans t (List.mem_append_left _ ht)
      have hpends := hs.pends hh.sound (fun hadv => (hh.silent hadv).idle) hopen hb hp
      exact Slot.waits_step hpends (fun a ha => ih a (slot?_mem ha))
        (hans _ (List.mem_append_right _ (List.mem_singleton_self _)))

/-- The answer to the last request of a field that has the value that was evaluated is taken over. -/
theorem World.Step.reached (hs : w.Step event fx w') (hw : w.Sound) {field : String} {task token : Nat} {v : Value}
    {ending : Ending} (he : Transition.Ends ⟨w, event, fx, w'⟩ field task token v ending)
    (ha : w.session.slot? field = some a) (ht : a.token = token) (hv : a.value.eqv v)
    (hasked : ending = .cancelled → a.phase ≠ .pending) :
    ∃ b, w'.session.slot? field = some b ∧ a.Reached b ending := by
  obtain ⟨hev, e, hm, hi, hj⟩ := he
  obtain ⟨-, rfl⟩ := hs.of_answer hev hm hi hj hw
  obtain ⟨-, hvalue, htoken, -, -, hresolved⟩ := forget_same a task
  have hfield := forget_field a task
  have current : isCurrent (forget a task) token v := isCurrent_iff.mpr ⟨(htoken.trans ht).symm, hvalue ▸ hv⟩
  have put (b : Slot) (hb : b.field = a.field) : (w.session.putSlot b).slot? field = some b := by
    obtain rfl := slot?_id ha
    rw [← hb] at ha ⊢
    exact slot?_putSlot_self ha
  have hset := settle_some ha task token v ending
  rw [absorb]
  generalize w.session.settle task field token v ending = s at hset ⊢
  cases hset with
  | dropped _ h =>
      rcases h with rfl | h
      · exact ⟨_, put _ hfield, hasked rfl⟩
      · rw [current] at h
        cases h
  | committed found => exact ⟨_, put _ hfield, rfl, rfl, rfl⟩
  | fellBack => exact ⟨_, put _ hfield, hresolved, hresolved, by rw [Slot.fellBack, hresolved]⟩

/-- No evaluation under the token of the last request is cancelled while the field waits for it. -/
theorem History.uncancelled (h : History ts w) (hopen : w.session.closed = false) (hans : ∀ t ∈ ts, t.Answers)
    (ha : a ∈ w.session.slots) (hp : a.phase = .pending) {e : Errand} (he : e ∈ w.errands) {v : Value}
    (hj : e.job = .evaluation a.field.id a.token v) : e.cancelled = false := by
  obtain ⟨task, u, -, hrun⟩ := h.waits hopen hans a ha hp
  rcases hrun with ⟨-, x, hx, -, hxj, hxc⟩ | ⟨t, ht, ending, -, hend, -⟩
  · rw [h.sound.eq_of_id he hx (h.sound.token_inj e he x hx _ _ _ _ hj hxj)]
    exact hxc
  · exact absurd hj ((h.ledger.spent t ht _ _ _ _ _ hend).2 e he v)

/-- Why fields are pending, and how they cease to be. -/
structure Awaited (ts : List Transition) (w : World) : Prop where
  /-- A field is pending as long as the evaluation of its last request runs, or because the answer missed. -/
  pending : ∀ c ∈ w.session.slots, c.phase = .pending →
    ∃ task v, c.LastRequest ts task v ∧ (c.Runs w task v ∨ Missed ts c.field.id task c.token v)
  /-- The answer to the last request is taken over, if the field has the value that was evaluated. -/
  reached : ∀ t ∈ ts, ∀ field task token v ending, t.Ends field task token v ending →
    ∀ a, t.before.session.slot? field = some a → a.token = token → a.value.eqv v →
      ∃ b, t.after.session.slot? field = some b ∧ a.Reached b ending

/-- Pending fields wait for the evaluation of their last request, as long as the evaluator answers and the session is
open. Only an answer that comes when the field has a value that is not equal to the one evaluated leaves one behind. -/
theorem pending_awaits_answer (h : History ts w) (hopen : w.session.closed = false) (hans : ∀ t ∈ ts, t.Answers) :
    Awaited ts w where
  pending := h.waits hopen hans
  reached t ht field task token v ending hend a ha htok hv := by
    obtain ⟨us, vs, rfl⟩ := List.append_of_mem ht
    obtain ⟨hb, hs, -⟩ := h.prefix_step
    refine hs.reached hb.sound hend ha htok hv fun hcan hp => ?_
    obtain ⟨hev, e, he, rfl, hj⟩ := hend
    have hbefore : t.before.session.closed = false := by
      refine Bool.eq_false_iff.mpr fun hc => ?_
      rw [(h.alike ht).closed hc] at hopen
      cases hopen
    obtain rfl := slot?_id ha
    have hrun := hb.uncancelled hbefore (fun u hu => hans u (List.mem_append_left _ hu)) (slot?_mem ha) hp he (htok ▸ hj)
    rw [hans t ht e he (hcan ▸ hev)] at hrun
    cases hrun

/-! ## A form with a stuck field -/

namespace Sample

def profile : Session where
  validator := { schema := ageSchema, checks := ageSchema.fields.map fun field => { field } }
  slots := ageSchema.fields.map fun field => { field }

theorem profile_opened : profile.Opened := ⟨ageSchema, profile.validator, .field, true, [], rfl, rfl⟩

/-- The age is the number that is none, and its evaluation answers. -/
def nanEvents : List Event :=
  [.edit "age" nan, .begin 0, .pauseOver 0, .begin 1, .answer 1 (.findings [])]

/-- Then a name is entered, and its evaluation is under way. -/
def nameEvents : List Event := nanEvents ++ [.edit "name" (.text "Bob"), .begin 2, .pauseOver 2, .begin 3]

theorem nanEvents_possible : (World.run? { session := profile } nanEvents).isSome := by decide +kernel

theorem nameEvents_possible : (World.run? { session := profile } nameEvents).isSome := by decide +kernel

def nanRun : List Transition × World := (World.run? { session := profile } nanEvents).get nanEvents_possible

def nameRun : List Transition × World := (World.run? { session := profile } nameEvents).get nameEvents_possible

end Sample

/-- The age, which missed its answer, and the name, whose evaluation runs, are both pending. -/
theorem pending_awaits_answer_profile :
    Sample.nameRun.2.session.slots.map (fun c => (c.phase, c.inflight)) = [(.pending, none), (.pending, some 3)] ∧
      Awaited Sample.nameRun.1 Sample.nameRun.2 :=
  ⟨by decide +kernel, pending_awaits_answer (Sample.profile_opened.history Sample.nameEvents_possible) (by decide +kernel)
    fun t ht => Transition.answers_of_answers (List.all_eq_true.mp (by decide +kernel) t ht)⟩

/-- An age that is edited to the number that is none stays pending when no evaluation runs any more. -/
theorem edited_nan_stays_pending : ∃ ts w, History ts w ∧ w.session.closed = false ∧ (∀ t ∈ ts, t.Answers) ∧
    w.errands = [] ∧ (w.session.slot? "age").map (·.phase) = some .pending :=
  ⟨Sample.nanRun.1, Sample.nanRun.2, Sample.profile_opened.history Sample.nanEvents_possible, by decide +kernel,
    fun t ht => Transition.answers_of_answers (List.all_eq_true.mp (by decide +kernel) t ht),
    List.isEmpty_iff.mp (by decide +kernel), by decide +kernel⟩

end Formwork
