import Formwork.Proofs.Mirrors
import Formwork.Proofs.Progress

/-!
Once nothing is due and nothing runs, the state of every field that was edited is told by its value alone:
the order of edits and answers, the pauses and the mode do not matter.
-/

namespace Formwork

open World Session

/-- Nothing that the session knows of runs. -/
structure World.Quiet (w : World) : Prop where
  visits : w.visits = []
  tasks : ∀ e ∈ w.errands, e.id ∉ w.session.tasks

/-- A live session is quiet when nothing is outstanding any more: then those who wait for it go on. -/
theorem LiveSession.Mirrors.quiet_iff {l : LiveSession} {w : World} (hm : l.Mirrors none w) (hv : w.visits = []) :
    w.Quiet ↔ l.outstanding = [] := by
  have hall : w.errands = l.agenda.errands none := hm.errands
  rw [outstanding, List.filter_eq_nil_iff]
  constructor
  · intro hq k hk hd
    unfold Agenda.isDone at hd
    cases ht : l.agenda.task? k with
    | none => simp [ht] at hd
    | some t =>
        obtain ⟨hmem, rfl⟩ := Agenda.task?_mem ht
        obtain ⟨j, hj⟩ := hm.tracked t.id hk (t.id, t.work) (List.mem_map_of_mem hmem) rfl
        have he := Agenda.mem_errands_of_job hmem hj (by simpa [ht] using hd)
        exact hq.tasks _ (hall ▸ he) (hm.session ▸ hk)
  · intro hd
    refine ⟨hv, fun e he hk => hd e.id (hm.session ▸ hk) ?_⟩
    obtain ⟨t, ht, hte⟩ := Agenda.mem_errands.mp (hall ▸ he)
    have hstage : t.stage ≠ .done := by
      intro hs
      cases hw : t.work <;> simp [Task.errand?, hw, hs] at hte
    simp [Agenda.isDone, Agenda.errand?_id hte, Agenda.task?_of_mem hm.orderly.distinct ht, hstage]

/-- Where a value comes to rest. -/
def restOf (r : String → Value → List Finding) (field : String) (v : Value) : Phase × AdvisoryOutcome :=
  if v.isBlank then (.idle, {}) else (.resolved, ⟨.resolved, r field v⟩)

/-- The field is at rest, except that the evaluation of a value that is not equal to itself never ends: such a
value can only be one that the session was opened with. -/
structure Slot.AtRest (r : String → Value → List Finding) (ts : List Transition) (c : Slot) : Prop where
  blank : c.value.isBlank → (c.phase, c.advisory) = (.idle, {})
  edited : (∃ t ∈ ts, ∃ v, t.event = .edit c.field.id v) →
    (c.phase, c.advisory) = restOf r c.field.id c.value
  untouched : (∀ t ∈ ts, ¬t.Touches c.field.id) → (c.phase, c.advisory) = (.idle, {})
  touched : (∃ t ∈ ts, t.Touches c.field.id) → c.value.eqv c.value →
    (c.phase, c.advisory) = restOf r c.field.id c.value
  stuck : (∃ t ∈ ts, t.Touches c.field.id) → c.value.eqv c.value = false →
    (∀ t ∈ ts, ∀ v, t.event ≠ .edit c.field.id v) ∧ (c.phase, c.advisory) = (.pending, ⟨.pending, []⟩)

theorem Value.eqv_self_of_isBlank {v : Value} (h : v.isBlank) : v.eqv v := by
  cases v <;> simp_all [Value.eqv_self_iff, Value.isNaN, Value.isBlank]

variable {r : String → Value → List Finding} {ts : List Transition} {w : World} {c : Slot}

namespace World.Quiet

theorem not_due (hq : w.Quiet) (hw : w.Sound) (hc : c ∈ w.session.slots) : ¬w.Due c.field.id := by
  rintro (⟨e, he, hj, hn⟩ | ⟨e, he, -, -, ht⟩ | hv)
  · refine hq.tasks e he (List.mem_append_right _ (List.mem_flatMap.mpr ⟨c, hc, ?_⟩))
    simp [(hw.slot c hc).ticking e he hj hn]
  · refine hq.tasks e he (List.mem_append_left _ ?_)
    simp [ht]
  · simp [Visits, hq.visits] at hv

theorem not_running (hq : w.Quiet) (hc : c ∈ w.session.slots) {e : Errand} (he : e ∈ w.errands) :
    c.inflight ≠ some e.id := by
  intro hi
  refine hq.tasks e he (List.mem_append_right _ (List.mem_flatMap.mpr ⟨c, hc, ?_⟩))
  simp [hi]

end World.Quiet

/-- A field that settles is at rest once nothing runs. -/
theorem Slot.Settling.atRest (h : c.Settling r ts w) (hq : w.Quiet) (hw : w.Sound) (hc : c ∈ w.session.slots) :
    c.AtRest r ts := by
  have hco := (hw.slot c hc).coherent
  have hdeb : c.phase ≠ .debouncing := fun hp => hq.not_due hw hc (h.due hp)
  have hpend : c.phase = .pending → c.value.eqv c.value = false := by
    intro hp
    refine Bool.eq_false_iff.mpr fun hv => ?_
    obtain ⟨e, he, hi, -⟩ := h.running hp hv
    exact hq.not_running hc he hi
  have idle : c.phase = .idle → (c.phase, c.advisory) = (.idle, {}) := fun hp => by rw [hp, (hco.idle hp).1]
  have blank : c.value.isBlank → (c.phase, c.advisory) = (.idle, {}) := by
    intro hb
    refine idle (by_contra fun hp => ?_)
    rw [hco.valued hp] at hb
    cases hb
  have resolved : c.phase = .resolved → (c.phase, c.advisory) = restOf r c.field.id c.value := by
    intro hp
    have hb := hco.valued (by rw [hp]; decide)
    obtain ⟨ha, hs⟩ := hco.resolved hp
    rw [restOf, if_neg (by simp [hb]), hp, ha, ← h.answered hp, ← hs]
  have touched : (∃ t ∈ ts, t.Touches c.field.id) → c.value.eqv c.value →
      (c.phase, c.advisory) = restOf r c.field.id c.value := by
    rintro ⟨t, ht, htouch⟩ hv
    cases hp : c.phase with
    | idle =>
        have hb := (h.idle hp).resolve_right fun hn => hn t ht htouch
        rw [restOf, if_pos hb]
        exact hp ▸ blank hb
    | debouncing => exact absurd hp hdeb
    | pending => rw [hpend hp] at hv; cases hv
    | resolved => exact hp ▸ resolved hp
  refine ⟨blank, ?_, fun hn => idle (by_contra fun hp => ?_), touched, ?_⟩
  · rintro ⟨t, ht, v, hev⟩
    refine touched ⟨t, ht, .inl ⟨v, hev⟩⟩ (by_contra fun hv => ?_)
    exact (h.strange (Bool.eq_false_iff.mpr hv)).1 t ht v hev
  · obtain ⟨t, ht, htouch⟩ := h.touched hp
    exact hn t ht htouch
  · rintro ⟨t, ht, htouch⟩ hv
    obtain ⟨hnever, hres⟩ := h.strange hv
    refine ⟨hnever, ?_⟩
    cases hp : c.phase with
    | idle =>
        have hb := (h.idle hp).resolve_right fun hn => hn t ht htouch
        rw [Value.eqv_self_of_isBlank hb] at hv
        cases hv
    | debouncing => exact absurd hp hdeb
    | pending => rw [hco.pending hp, hres]
    | resolved =>
        have hs := (hco.resolved hp).2
        rw [hres] at hs
        cases hs

/-- Two sessions of any mode that come to rest with equal values show the same for every edited field. -/
theorem Slot.AtRest.eq_of_values {us : List Transition} {d : Slot} (hc : c.AtRest r ts) (hd : d.AtRest r us)
    (hr : ∀ field u v, u.eqv v → r field u = r field v) (hid : c.field.id = d.field.id)
    (hv : c.value.eqv d.value) (he : ∃ t ∈ ts, ∃ v, t.event = .edit c.field.id v)
    (he' : ∃ t ∈ us, ∃ v, t.event = .edit d.field.id v) : (c.phase, c.advisory) = (d.phase, d.advisory) := by
  rw [hc.edited he, hd.edited he', restOf, restOf, Value.isBlank_of_eqv hv, hid, hr _ _ _ hv]

/-- Whatever the order of edits, pauses and answers: once nothing runs any more, every field is at rest. -/
theorem comes_to_rest (h : History ts w) (hadv : w.session.schema.advisoryEnabled)
    (hopen : w.session.closed = false) (hq : w.Quiet) (hr : ∀ field u v, u.eqv v → r field u = r field v)
    (hfair : ∀ t ∈ ts, t.Fair r) : ∀ c ∈ w.session.slots, c.AtRest r ts :=
  fun c hc => (h.settling hadv hopen hr hfair c hc).atRest hq h.sound hc

theorem Sample.findings_congr (field : String) (u v : Value) (h : u.eqv v) :
    findings field u = findings field v := by
  cases u <;> cases v <;> simp_all [findings, Value.eqv, Value.same, Value.asNumber?]

theorem comes_to_rest_sample :
    Sample.run.2.session.slots.map (fun c => (c.phase, c.advisory)) =
        [(.resolved, ⟨.resolved, []⟩), (.resolved, ⟨.resolved, []⟩)] ∧
      ∀ c ∈ Sample.run.2.session.slots, c.AtRest Sample.findings Sample.run.1 := by
  have errands : Sample.run.2.errands = [] := List.isEmpty_iff.mp (by decide +kernel)
  have quiet : Sample.run.2.Quiet := ⟨List.isEmpty_iff.mp (by decide +kernel), by simp [errands]⟩
  have fair : ∀ t ∈ Sample.run.1, t.Fair Sample.findings := fun t ht =>
    Transition.fair_of_isFair (List.all_eq_true.mp (by decide +kernel) t ht)
  exact ⟨by decide +kernel,
    comes_to_rest Sample.history (by decide +kernel) (by decide +kernel) quiet Sample.findings_congr fair⟩

/-! ## The field that never rests -/

namespace Sample

def nan : Value := .number (.float .nan)

def ageSchema : Schema where
  id := "profile"
  title := .text "Profile"
  fields := [{ id := "age", type := .number, label := .text "Age" },
    { id := "name", type := .text, label := .text "Name" }]

/-- All fields are evaluated together, and one of them is opened with the number that is none. -/
def ageSession : Session where
  validator := { schema := ageSchema, checks := ageSchema.fields.map fun field => { field } }
  mode := .form
  slots :=
    [{ field := { id := "age", type := .number, label := .text "Age" }, value := nan,
       structural := .ofViolation "Age" (some .invalidNumber) },
      { field := { id := "name", type := .text, label := .text "Name" } }]

theorem ageSession_opened : ageSession.Opened :=
  ⟨ageSchema, ageSession.validator, .form, true, [("age", nan)], rfl, rfl⟩

/-- The other field is edited, and every evaluation answers. -/
def ageEvents : List Event :=
  [.edit "name" (.text "Bob"), .begin 0, .pauseOver 0, .visit, .visit, .begin 1, .begin 2,
    .answer 1 (.findings (findings "age" nan)), .answer 2 (.findings (findings "name" (.text "Bob")))]

theorem ageEvents_possible : (World.run? { session := ageSession } ageEvents).isSome := by decide +kernel

def ageRun : List Transition × World := (World.run? { session := ageSession } ageEvents).get ageEvents_possible

theorem ageRun_history : History ageRun.1 ageRun.2 := ageSession_opened.history ageEvents_possible

theorem age_not_edited : ∀ t ∈ ageRun.1, ∀ v, t.event ≠ .edit "age" v := by
  intro t ht v hv
  have hm : Event.edit "age" v ∈ ageEvents := by
    rw [← run?_events (Option.some_get ageEvents_possible).symm, ← hv]
    exact List.mem_map_of_mem ht
  simp [ageEvents] at hm

end Sample

/-- A field that is opened with the number that is none, and never edited, stays pending after its evaluation
has answered. -/
theorem prefilled_nan_stays_pending : ∃ ts w, History ts w ∧ w.session.schema.advisoryEnabled ∧
    w.session.closed = false ∧ w.Quiet ∧ (∀ t ∈ ts, t.Fair Sample.findings) ∧
    (∀ t ∈ ts, ∀ v, t.event ≠ .edit "age" v) ∧ (w.session.slot? "age").map (·.phase) = some .pending := by
  have errands : Sample.ageRun.2.errands = [] := List.isEmpty_iff.mp (by decide +kernel)
  have quiet : Sample.ageRun.2.Quiet := ⟨List.isEmpty_iff.mp (by decide +kernel), by simp [errands]⟩
  have fair : ∀ t ∈ Sample.ageRun.1, t.Fair Sample.findings := fun t ht =>
    Transition.fair_of_isFair (List.all_eq_true.mp (by decide +kernel) t ht)
  exact ⟨Sample.ageRun.1, Sample.ageRun.2, Sample.ageRun_history, by decide +kernel, by decide +kernel, quiet, fair,
    Sample.age_not_edited, by decide +kernel⟩

end Formwork
