import Formwork.Proofs.Freshness
import Formwork.Proofs.SubmissionGate

/-!
A submission of the values of a session at rest comes to what the views of the session show: it is accepted if no view
shows an error or a finding that is one, and else those views name the fields that block it.
-/

namespace Formwork

open World Session

namespace Check

/-- A message is shown exactly for a value that violates a rule. -/
theorem message_isSome {c : Check} {x : Value} {o : Outcome} (h : c.outcome x = .ok o) : o.message.isSome = !o.valid := by
  rw [outcome] at h
  cases hv : c.violation? x with
  | error e => simp [hv, Except.map] at h
  | ok found =>
      simp only [hv, Except.map, Except.ok.injEq] at h
      subst h
      cases found <;> rfl

end Check

namespace View

theorem toneOf_error (a : AdvisoryOutcome) : toneOf a = some "error" ↔ a.status = .resolved ∧ a.hasErrors := by
  have herrors : a.hasErrors = a.findings.any fun f => f.severity = .error := rfl
  by_cases hs : a.status = .resolved
  · rw [toneOf, if_pos hs, herrors, and_iff_right hs]
    cases he : a.findings.any fun f => f.severity = .error with
    | true => simp [Severity.all, he, Severity.name]
    | false =>
        cases hw : a.findings.any fun f => f.severity = .warning <;>
          cases hi : a.findings.any fun f => f.severity = .info <;> simp [Severity.all, he, hw, hi, Severity.name]
  · simp [toneOf, hs]

/-- The fields that views say are in the way: those with an error, or else those whose tone is one. -/
def blocked (views : List View) : List String :=
  (if (views.filter (·.error.isSome)).isEmpty then views.filter (·.tone = some "error")
    else views.filter (·.error.isSome)).map (·.field)

theorem blocked_eq_nil {views : List View} :
    blocked views = [] ↔ ∀ x ∈ views, x.error = none ∧ x.tone ≠ some "error" := by
  rw [blocked, List.map_eq_nil_iff]
  split
  · next h =>
      rw [List.isEmpty_iff, List.filter_eq_nil_iff] at h
      rw [List.filter_eq_nil_iff]
      refine ⟨fun ht x hx => ⟨by simpa using h x hx, by simpa using ht x hx⟩, fun hall x hx => ?_⟩
      simpa using (hall x hx).2
  · next h =>
      rw [List.isEmpty_iff] at h
      refine ⟨fun hn => absurd hn h, fun hall => ?_⟩
      rw [List.filter_eq_nil_iff]
      intro x hx
      simp [(hall x hx).1]

end View

namespace Session

variable {s : Session} {schema : Schema} {r : String → Value → List Finding} {evaluator : Evaluator} {c : Slot}

/-- Fields that have the outcomes for their values. -/
theorem outcomes_of_fits (hv : Validator.ofSchema schema = .ok s.validator) (hi : s.ids = schema.ids)
    (h : ∀ c ∈ s.slots, s.validator.validateField c.field.id c.value = .ok c.structural) :
    s.outcomes = .ok (s.slots.map fun c => (c.field.id, c.structural)) :=
  (outcomes_ok_iff hv hi).mpr (List.forall₂_map_right_iff.mpr (List.forall₂_same.mpr fun c hc => ⟨rfl, h c hc⟩))

theorem entry_values (hn : s.ids.Nodup) (hc : c ∈ s.slots) : (Value.record s.values).entry c.field.id = c.value := by
  rw [Value.entry_record, lookup_values hn hc]
  rfl

/-- Whether something is wrong with the value of a field, by its findings. -/
def alarms (r : String → Value → List Finding) (values : Value) (id : String) : Bool :=
  !(values.entry id).isBlank && (r id (values.entry id)).any Finding.isError

/-- The fields with an error finding in a submission of the values of a session. -/
theorem advisoryErrors_fields (hn : s.ids.Nodup) (hi : s.ids = schema.ids)
    (he : ∀ f ∈ schema.fields, ∀ x, (evaluator f x).answer = .findings (r f.id x)) :
    (Submission.advisoryErrors schema evaluator (.record s.values)).map (·.1) =
      (s.slots.filter fun c => schema.advisoryEnabled && !c.value.isBlank &&
        (r c.field.id c.value).any Finding.isError).map fun c => c.field.id := by
  have hreturned : ∀ f ∈ schema.fields, (schema.advisoryEnabled &&
      (Schema.returned evaluator (.record s.values) f).any Finding.isError) =
        (schema.advisoryEnabled && alarms r (.record s.values) f.id) := by
    intro f hf
    rw [Schema.returned, he f hf, alarms]
    cases ((Value.record s.values).entry f.id).isBlank <;> simp [Evaluation.found]
  have hentry : ∀ c ∈ s.slots, (schema.advisoryEnabled && alarms r (.record s.values) c.field.id) =
      (schema.advisoryEnabled && !c.value.isBlank && (r c.field.id c.value).any Finding.isError) := by
    intro c hc
    rw [alarms, entry_values hn hc, Bool.and_assoc]
  calc (Submission.advisoryErrors schema evaluator (.record s.values)).map (·.1)
      = schema.ids.filter fun id => schema.advisoryEnabled && alarms r (.record s.values) id := by
        rw [Submission.advisoryErrors_ids, List.filter_congr hreturned, Schema.ids, List.filter_map]
        rfl
    _ = (s.slots.filter fun c => schema.advisoryEnabled && alarms r (.record s.values) c.field.id).map
          fun c => c.field.id := by
        rw [← hi, ids, List.filter_map]
        rfl
    _ = _ := by rw [List.filter_congr hentry]

/-- The views of a session in which every outcome is the one for the value and every tone tells the findings. -/
theorem blocked_views (hfit : ∀ c ∈ s.slots, c.structural.message.isSome = !c.structural.valid)
    (htone : ∀ c ∈ s.slots, View.toneOf c.advisory = some "error" ↔
      (schema.advisoryEnabled && !c.value.isBlank && (r c.field.id c.value).any Finding.isError) = true)
    (hn : s.ids.Nodup) (hi : s.ids = schema.ids)
    (he : ∀ f ∈ schema.fields, ∀ x, (evaluator f x).answer = .findings (r f.id x)) :
    View.blocked (s.states.map View.ofState) = (Submission.blockers schema evaluator (.record s.values)
      (s.slots.map fun c => (c.field.id, c.structural))).map (·.1) := by
  have hfailing : (s.states.map View.ofState).filter (·.error.isSome) =
      (s.slots.filter fun c => !c.structural.valid).map fun c => View.ofState c.state := by
    rw [states, List.map_map, List.filter_map]
    exact congrArg (List.map _) (List.filter_congr hfit)
  have halarming : (s.states.map View.ofState).filter (·.tone = some "error") =
      (s.slots.filter fun c => schema.advisoryEnabled && !c.value.isBlank &&
        (r c.field.id c.value).any Finding.isError).map fun c => View.ofState c.state := by
    rw [states, List.map_map, List.filter_map]
    refine congrArg (List.map _) (List.filter_congr fun c hc => ?_)
    exact (Bool.decide_congr (htone c hc)).trans (Bool.decide_coe _)
  have hfields (slots : List Slot) : (slots.map fun c => View.ofState c.state).map (·.field) =
      slots.map fun c => c.field.id := by
    rw [List.map_map]
    rfl
  have hstructural : ((Submission.structuralBlocks (s.slots.map fun c => (c.field.id, c.structural))).map (·.1)) =
      (s.slots.filter fun c => !c.structural.valid).map fun c => c.field.id := by
    rw [Submission.structuralBlocks_fields, Validator.failing, List.filter_map, List.map_map]
    rfl
  have hnone : ((s.slots.filter fun c => !c.structural.valid).map fun c => View.ofState c.state).isEmpty =
      (s.slots.map fun c => (c.field.id, c.structural)).all (·.2.valid) := by
    rw [← Submission.structuralBlocks_isEmpty, ← List.isEmpty_map (f := Prod.fst), hstructural, List.isEmpty_map,
      List.isEmpty_map]
  rw [View.blocked, hfailing, hnone, halarming, Submission.blockers]
  split
  · rw [hfields, advisoryErrors_fields hn hi he]
  · rw [hfields, hstructural]

end Session

/-! ## At rest -/

variable {r : String → Value → List Finding} {ts : List Transition} {w : World} {c : Slot}

/-- A field at rest shows the tone of an error if its value has an error finding. -/
theorem Slot.AtRest.tone (h : c.AtRest r ts)
    (hedited : c.value.isBlank = false → ∃ t ∈ ts, ∃ v, t.event = .edit c.field.id v) :
    View.toneOf c.advisory = some "error" ↔
      (!c.value.isBlank && (r c.field.id c.value).any Finding.isError) = true := by
  cases hb : c.value.isBlank with
  | true =>
      have hrest := (Prod.ext_iff.mp (h.blank hb)).2
      simp only at hrest
      simp [hrest, View.toneOf]
  | false =>
      have hrest := h.edited (hedited hb)
      rw [restOf, if_neg (by simp [hb])] at hrest
      have hadv : c.advisory = ⟨.resolved, r c.field.id c.value⟩ := (Prod.ext_iff.mp hrest).2
      rw [View.toneOf_error, hadv]
      simp [AdvisoryOutcome.hasErrors]

/-- An edit of a fair history does not break off. -/
theorem World.Transition.Fair.not_breaksOff {t : Transition} (h : t.Fair r) {field : String}
    (hf : field ∈ t.before.session.ids) (v : Value) : ¬t.BreaksOff field v := by
  rintro ⟨hev, e, he⟩
  obtain ⟨a, ha⟩ := slot?_isSome_iff.mpr hf
  obtain ⟨o, ho⟩ := (h.edits field v hev).2 a ha
  cases he.symm.trans ho

/-- Whether there is advice or not, the tones at rest tell the findings for the values. -/
theorem History.tones (h : History ts w) (hopen : w.session.closed = false) (hq : w.Quiet)
    (hr : ∀ field u v, u.eqv v → r field u = r field v) (hfair : ∀ t ∈ ts, t.Fair r)
    (hedited : ∀ c ∈ w.session.slots, c.value.isBlank = false → ∃ t ∈ ts, ∃ v, t.event = .edit c.field.id v) :
    ∀ c ∈ w.session.slots, View.toneOf c.advisory = some "error" ↔ (w.session.schema.advisoryEnabled &&
      !c.value.isBlank && (r c.field.id c.value).any Finding.isError) = true := by
  intro c hc
  cases hadv : w.session.schema.advisoryEnabled with
  | true =>
      rw [((h.settling hadv hopen hr hfair c hc).atRest hq h.sound hc).tone (hedited c hc), Bool.true_and]
  | false =>
      have hidle := (h.sound.slot c hc).coherent.idle ((h.silent hadv).idle c hc)
      simp [hidle.1, View.toneOf]

/-- Once every value has been edited and validated and nothing runs any more, a submission of the values is accepted if
no view shows an error, and else it names the fields whose views do: unless a listener's edit overtook an outcome. -/
theorem submission_agrees {schema : Schema} {v : Validator} (hv : Validator.ofSchema schema = .ok v) {mode : Mode}
    {cancelStale : Bool} {initial : List (String × Value)} {s : Session}
    (hs : Session.ofValidator v mode cancelStale initial = .ok s) {events : List Event}
    (hrun : World.run? { session := s } events = some (ts, w)) (hopen : w.session.closed = false) (hq : w.Quiet)
    (hr : ∀ field u x, u.eqv x → r field u = r field x) (hfair : ∀ t ∈ ts, t.Fair r)
    (hedited : ∀ c ∈ w.session.slots, c.value.isBlank = false → ∃ t ∈ ts, ∃ u, t.event = .edit c.field.id u)
    (hall : ∃ t ∈ ts, t.event = .validateAll) (hno : ∀ field ∈ schema.ids, ¬Overtaken ts field)
    {evaluator : Evaluator} (he : ∀ f ∈ schema.fields, ∀ x, (evaluator f x).answer = .findings (r f.id x))
    {σ : Type} {collaborator : Collaborator σ} (hc : ∀ st data, (collaborator st data).2.2 = none) (state : σ)
    (now : Nat) :
    (w.session.states.map View.ofState).map (·.field) = schema.ids ∧
      ∃ res, (Submission.run v evaluator collaborator state (.record w.session.values) now).result = .ok res ∧
        (res.accepted ↔ ∀ x ∈ w.session.states.map View.ofState, x.error = none ∧ x.tone ≠ some "error") ∧
        res.blocking.map (·.1) = View.blocked (w.session.states.map View.ofState) := by
  obtain ⟨-, hh, halike⟩ := opened_of_run hv hs hrun
  have hfresh := Fresh.ofValidator hs
  have hval : w.session.validator = v := halike.validator.trans hfresh.validator
  have hschema : w.session.schema = schema := (congrArg Validator.schema hval).trans (Validator.ofSchema_schema hv)
  have hids : w.session.ids = schema.ids :=
    halike.ids.trans (hfresh.ids.trans (congrArg Schema.ids (Validator.ofSchema_schema hv)))
  have hn : w.session.ids.Nodup := hids ▸ Validator.ofSchema_nodup hv
  subst hval
  -- every field was checked by the validation, and nothing is left of its walk
  have hrec := Recorded.of_run hv hs hrun fun t ht field hf u =>
    (hfair t ht).not_breaksOff ((hh.alike ht).ids ▸ halike.ids ▸ hf) u
  have hmem : ∀ c ∈ w.session.slots, c.field.id ∈ schema.ids := fun c hc => hids ▸ List.mem_map_of_mem hc
  have hfit : ∀ c ∈ w.session.slots,
      w.session.validator.validateField c.field.id c.value = .ok c.structural := by
    intro c hc
    refine (hrec.checked c hc ?_).resolve_right (hno _ (hmem c hc))
    exact (hrec.covered hall c hc).resolve_left fun ⟨o, hm⟩ => by simp [hq.visits] at hm
  have ho := outcomes_of_fits hv hids hfit
  have hmessage : ∀ c ∈ w.session.slots, c.structural.message.isSome = !c.structural.valid := by
    intro c hc
    obtain ⟨k, hk⟩ := Validator.check?_isSome hv (hmem c hc)
    have hout := hfit c hc
    rw [Validator.validateField, hk] at hout
    exact Check.message_isSome hout
  have htones := hh.tones hopen hq hr hfair hedited
  rw [hschema] at htones
  have hviews := blocked_views hmessage htones hn hids he
  have hcancel : ∀ f ∈ schema.fields, Evaluation.isCancelled
      (evaluator f ((Value.record w.session.values).entry f.id)).answer = false := by
    intro f hf
    rw [he f hf]
    rfl
  obtain ⟨res, hres, hblocking, haccepted⟩ := Submission.run_result hv ho hcancel hc state now
  refine ⟨?_, res, hres, ?_, by rw [hblocking, hviews]⟩
  · rw [states, List.map_map, List.map_map, ← hids]
    rfl
  · rw [haccepted, ← View.blocked_eq_nil, hviews, ← hblocking, List.map_eq_nil_iff]

/-! ## A trip with a name that does not exist -/

namespace Sample

/-- Both fields are edited and evaluated, and then validated. -/
def bookedEvents : List Event :=
  [.edit "name" (.text "Ann"), .edit "city" (.text "Rome"), .begin 0, .begin 1, .pauseOver 0, .pauseOver 1, .begin 2,
    .begin 3, .answer 2 (.findings (findings "name" (.text "Ann"))),
    .answer 3 (.findings (findings "city" (.text "Rome"))), .validateAll, .visit, .visit]

theorem bookedEvents_possible : (World.run? { session := trip } bookedEvents).isSome := by decide +kernel

def bookedRun : List Transition × World := (World.run? { session := trip } bookedEvents).get bookedEvents_possible

/-- It finds what the evaluator of the session finds. -/
def finder : Evaluator := fun f x => { pause := .none, answer := .findings (findings f.id x) }

/-- The city was entered while the fields were validated; then a name is entered, and everything is evaluated. -/
def guidedLater : LiveSession := .await 30 (guided.validateAll.1.edit "name" (.text "Bob")).1 .flush

end Sample

theorem submission_agrees_booked :
    View.blocked (Sample.bookedRun.2.session.states.map View.ofState) = ["name"] ∧
      (Sample.bookedRun.2.session.states.map View.ofState).map (·.field) = Sample.trip.schema.ids ∧
        ∃ res, (Submission.run Sample.trip.validator Sample.finder Submission.signupCollaborator 0
            (.record Sample.bookedRun.2.session.values) 0).result = .ok res ∧
          (res.accepted ↔ ∀ x ∈ Sample.bookedRun.2.session.states.map View.ofState,
            x.error = none ∧ x.tone ≠ some "error") ∧
          res.blocking.map (·.1) = View.blocked (Sample.bookedRun.2.session.states.map View.ofState) := by
  have hv : Validator.ofSchema Sample.trip.schema = .ok Sample.trip.validator := rfl
  have hs : Session.ofValidator Sample.trip.validator .field true [] = .ok Sample.trip := rfl
  have errands : Sample.bookedRun.2.errands = [] := List.isEmpty_iff.mp (by decide +kernel)
  have quiet : Sample.bookedRun.2.Quiet := ⟨List.isEmpty_iff.mp (by decide +kernel), by simp [errands]⟩
  have fair : ∀ t ∈ Sample.bookedRun.1, t.Fair Sample.findings := fun t ht =>
    Transition.fair_of_isFair (List.all_eq_true.mp (by decide +kernel) t ht)
  have run : World.run? { session := Sample.trip } Sample.bookedEvents = some (Sample.bookedRun.1, Sample.bookedRun.2) :=
    run?_get Sample.bookedEvents_possible
  have name : Event.edit "name" (.text "Ann") ∈ Sample.bookedEvents := by simp [Sample.bookedEvents]
  have city : Event.edit "city" (.text "Rome") ∈ Sample.bookedEvents := by simp [Sample.bookedEvents]
  have validated : Event.validateAll ∈ Sample.bookedEvents := by simp [Sample.bookedEvents]
  have edited : ∀ c ∈ Sample.bookedRun.2.session.slots, c.value.isBlank = false →
      ∃ t ∈ Sample.bookedRun.1, ∃ u, t.event = .edit c.field.id u := by
    intro c hc _
    have hid : c.field.id ∈ ["name", "city"] := by
      rw [show ["name", "city"] = Sample.bookedRun.2.session.ids by decide +kernel]
      exact List.mem_map_of_mem hc
    rcases List.mem_cons.mp hid with he | he
    · obtain ⟨t, ht, hev⟩ := run?_event run name
      exact ⟨t, ht, _, he ▸ hev⟩
    · obtain ⟨t, ht, hev⟩ := run?_event run city
      exact ⟨t, ht, _, List.mem_singleton.mp he ▸ hev⟩
  have between : ∀ t ∈ Sample.bookedRun.1, ∀ field, t.Edits field → t.before.visits = [] := fun t ht _ hedit =>
    hedit.visits (List.all_eq_true.mp (by decide +kernel) t ht)
  have answers : ∀ f ∈ Sample.trip.schema.fields, ∀ x,
      (Sample.finder f x).answer = .findings (Sample.findings f.id x) := fun _ _ _ => rfl
  have taken : ∀ st data, (Submission.signupCollaborator st data).2.2 = none := fun _ _ => rfl
  have opened : Sample.bookedRun.2.session.closed = false := by decide +kernel
  have validation := run?_event run validated
  have free : ∀ field ∈ Sample.trip.schema.ids, ¬Overtaken Sample.bookedRun.1 field :=
    fun field _ => not_overtaken fun t ht => between t ht field
  exact ⟨by decide +kernel, submission_agrees hv hs run opened quiet Sample.findings_congr fair edited validation free
    answers taken 0 0⟩

/-- With the city that was entered while the fields were validated, the form is accepted although a view shows an
error. -/
theorem entered_city_accepted :
    Sample.guidedLater.outstanding = [] ∧
      (∃ res, (Submission.run Sample.trip.validator Sample.guidedLater.evaluator Submission.signupCollaborator 0
        (.record Sample.guidedLater.session.values) 0).result = .ok res ∧ res.accepted) ∧
      ∃ x ∈ Sample.guidedLater.session.states.map View.ofState, x.error ≠ none := by
  have haccepted : (Submission.run Sample.trip.validator Sample.guidedLater.evaluator Submission.signupCollaborator 0
      (.record Sample.guidedLater.session.values) 0).result.toOption.any (·.accepted) := by decide +kernel
  refine ⟨by decide +kernel, ?_, ?_⟩
  · generalize (Submission.run Sample.trip.validator Sample.guidedLater.evaluator Submission.signupCollaborator 0
      (.record Sample.guidedLater.session.values) 0).result = result at haccepted
    cases result with
    | ok res => exact ⟨res, rfl, haccepted⟩
    | error e => cases haccepted
  have herror : (Sample.guidedLater.session.states.map View.ofState).any fun x => x.error ≠ none := by decide +kernel
  simpa using List.any_eq_true.mp herror

end Formwork
