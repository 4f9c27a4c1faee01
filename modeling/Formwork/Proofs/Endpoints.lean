import Formwork.Proofs.Faults
import Formwork.Proofs.Served
import Formwork.Proofs.SubmissionGate

/-!
A validation and a submission of the same data agree, whatever the rules find and whenever the two are asked for.
-/

namespace Formwork

/-! ## What an answer says -/

namespace Reply

/-- The document of an answer. -/
def body : Reply → Value
  | content doc | response _ doc => doc

def status : Reply → Nat
  | content _ => 200
  | response status _ => status

/-- Whether an answer says that all values are valid. -/
def isValid (r : Reply) : Bool := (r.body.entry "valid").isTrue

/-- What an answer says about each field, in order. -/
def fields (r : Reply) : List (String × Value) :=
  (Submission.entriesOf (r.body.entry "fields")).map fun e => (e.1.display, e.2)

/-- The fields that an answer calls structurally invalid. -/
def failing (r : Reply) : List String :=
  (r.fields.filter fun e => !((e.2.entry "structural").entry "valid").isTrue).map (·.1)

/-- The fields for which an answer has an error finding. -/
def alarming (r : Reply) : List String :=
  (r.fields.filter fun e => (((e.2.entry "advisory").entry "findings").elements.toOption.getD []).any fun finding =>
    (finding.entry "severity").eqv (.text Severity.error.name)).map (·.1)

/-- The fields that block a submission, by the answer to it. -/
def blocking (r : Reply) : List String :=
  ((r.body.entry "blockingErrors").elements.toOption.getD []).map Value.display

end Reply

theorem Finding.toValue_severity (f : Finding) :
    (f.toValue.entry "severity").eqv (.text Severity.error.name) = f.isError := by
  rw [toValue, Value.entry_record]
  cases hs : f.severity <;> simp [Value.eqv, Value.same, Value.isNaN, Severity.name, isError, hs]

namespace Service

variable {form : Schema} {data : Entries} {outcomes : List (String × Outcome)} {findings : FindingMap} {v : Validator}
  {engine : Engine}

section

variable (form data outcomes findings)

theorem isValid_report :
    (Reply.content (report form data outcomes findings)).isValid = outcomes.all fun o => o.2.valid := by
  rw [Reply.isValid, Reply.body, report, Value.entry_record]
  rfl

theorem fields_report : (Reply.content (report form data outcomes findings)).fields =
    outcomes.map fun o => (o.1, .record [("structural", o.2.toValue),
      ("advisory", (advisoryOf form data findings o.1).toValue)]) := by
  rw [Reply.fields, Reply.body, report, Value.entry_record]
  simp [List.lookup_cons, Submission.entriesOf, Value.record, Value.display]

theorem failing_report :
    (Reply.content (report form data outcomes findings)).failing = Validator.failing outcomes := by
  rw [Reply.failing, fields_report, List.filter_map, List.map_map, Validator.failing]
  simp [Function.comp_def, Value.entry_record, Outcome.toValue, Value.isTrue]

theorem alarming_report : (Reply.content (report form data outcomes findings)).alarming =
    (outcomes.filter fun o => (advisoryOf form data findings o.1).hasErrors).map (·.1) := by
  rw [Reply.alarming, fields_report, List.filter_map, List.map_map]
  simp [Function.comp_def, Value.entry_record, AdvisoryOutcome.toValue, List.lookup_cons, Value.elements, Except.toOption,
    List.any_map, Finding.toValue_severity, AdvisoryOutcome.hasErrors]

end

theorem blocking_toValue (status : Nat) (r : SubmissionResult) :
    (Reply.response status r.toValue).blocking = r.blocking.map (·.1) := by
  rw [Reply.blocking, Reply.body, SubmissionResult.toValue, Value.entry_record]
  simp [List.lookup_cons, Value.elements, Except.toOption, Function.comp_def, Value.display]

/-! ## Names that are no fields -/

/-- The refusal of data with names that are no fields of a form. -/
def refusal (form : Schema) (names : List String) : Fault :=
  let list := ", ".intercalate names
  .refused 400 s!"Unknown field(s) for form '{form.id}': {list}"

theorem mem_unknownNames {name : String} :
    name ∈ unknownNames form data ↔ name ∉ form.ids ∧ ∃ e ∈ data, e.1.display = name := by
  rw [unknownNames, List.mem_mergeSort, List.mem_filter, List.mem_map]
  simp [and_comm]

theorem checkNames_known (h : ∀ e ∈ data, e.1.display ∈ form.ids) : checkNames form data = .ok () := by
  have hnone : unknownNames form data = [] := by
    refine List.eq_nil_iff_forall_not_mem.mpr fun name hm => ?_
    obtain ⟨hn, e, he, rfl⟩ := mem_unknownNames.mp hm
    exact hn (h e he)
  rw [checkNames, hnone]

theorem checkNames_unknown (h : ∃ e ∈ data, e.1.display ∉ form.ids) :
    checkNames form data = .error (refusal form (unknownNames form data)) := by
  obtain ⟨e, he, hn⟩ := h
  have hm : e.1.display ∈ unknownNames form data := mem_unknownNames.mpr ⟨hn, e, he, rfl⟩
  unfold checkNames
  split
  · next hnone => rw [hnone] at hm; cases hm
  · rfl

/-! ## Data with the names of fields only -/

section

variable (hv : Validator.ofSchema v.schema = .ok v) (hknown : ∀ e ∈ data, e.1.display ∈ v.schema.ids)

include hv hknown

theorem validate_known (engine : Engine) (now : Nat) :
    (validate engine now v data).2 = (v.validate (.map data)).map fun outcomes =>
      .content (report v.schema data outcomes (Submission.foundIn v.schema engine.evaluator (.map data))) := by
  rw [validate, checkNames_known hknown]
  cases ho : v.validate (.map data) with
  | error e => rfl
  | ok outcomes =>
      have hfound := Submission.advise_findings hv ho (fun f _ => engine.not_cancelled f _) now
      simp only [hfound]
      rfl

theorem submit_known (engine : Engine) (now : Nat) (ho : v.validate (.map data) = .ok outcomes) :
    ∃ r, r.blocking = Submission.blockers v.schema engine.evaluator (.map data) outcomes ∧
      (r.accepted ↔ r.blocking = []) ∧ (submit engine now v data).2 = responseOf r := by
  have hnone : ∀ st given, (noCollaborator st given).2.2 = none := fun _ _ => rfl
  obtain ⟨r, hr, hblocking, haccepted⟩ :=
    Submission.run_result hv ho (fun f _ => engine.not_cancelled f _) hnone () now
  refine ⟨r, hblocking, haccepted, ?_⟩
  rw [submit, checkNames_known hknown]
  exact congrArg (·.bind responseOf) hr

end

/-- The errors that a validation shows for a field are those that its evaluation returns. -/
theorem advisoryOf_hasErrors (hn : form.ids.Nodup) (data : Entries) (evaluator : Evaluator) {f : Field} (hf : f ∈ form.fields) :
    (advisoryOf form data (Submission.foundIn form evaluator (.map data)) f.id).hasErrors =
      (form.advisoryEnabled && (Schema.returned evaluator (.map data) f).any Finding.isError) := by
  have hentry : (Value.map data).entry f.id = Entries.get data f.id := rfl
  have hfound : FindingMap.get (form.fields.map fun f => (f.id, Schema.returned evaluator (.map data) f)) f.id =
      Schema.returned evaluator (.map data) f := by
    rw [FindingMap.get, lookup_map _ hn hf]
    rfl
  cases hadv : form.advisoryEnabled with
  | false => simp [advisoryOf, hadv, AdvisoryOutcome.hasErrors]
  | true =>
      cases hb : (Entries.get data f.id).isBlank with
      | true => simp [advisoryOf, hadv, hb, AdvisoryOutcome.hasErrors, Schema.returned, hentry]
      | false => simp [advisoryOf, hadv, hb, AdvisoryOutcome.hasErrors, Submission.foundIn, hfound]

theorem alarming_fields (hv : Validator.ofSchema v.schema = .ok v) (ho : v.validate (.map data) = .ok outcomes)
    (evaluator : Evaluator) : (Reply.content (report v.schema data outcomes
      (Submission.foundIn v.schema evaluator (.map data)))).alarming =
        (Submission.advisoryErrors v.schema evaluator (.map data)).map (·.1) := by
  have hids : outcomes.map (·.1) = v.schema.ids := (Validator.validate_ok ho).2.trans (Validator.ofSchema_ids hv)
  have herrors : ∀ f ∈ v.schema.fields, _ := fun f hf =>
    advisoryOf_hasErrors (Validator.ofSchema_nodup hv) data evaluator hf
  rw [alarming_report, Submission.advisoryErrors_ids, ← List.filter_congr herrors]
  have named (p : String → Bool) : (outcomes.filter fun o => p o.1).map (·.1) =
      (v.schema.fields.filter fun f => p f.id).map (·.id) :=
    calc (outcomes.filter fun o => p o.1).map (·.1)
        = (outcomes.map (·.1)).filter p := by rw [List.filter_map]; rfl
      _ = (v.schema.fields.filter fun f => p f.id).map (·.id) := by rw [hids, Schema.ids, List.filter_map]; rfl
  exact named fun id => (advisoryOf v.schema data (Submission.foundIn v.schema evaluator (.map data)) id).hasErrors

/-! ## Agreement -/

/-- The answers to a validation and to a submission of some data for a form. -/
structure Agreeing (form : Schema) (data : Entries) (validated submitted : Except Fault Reply) : Prop where
  /-- Both refuse the names that are no fields. -/
  unknown : (∃ e ∈ data, e.1.display ∉ form.ids) →
    ∃ names, (∀ name, name ∈ names ↔ name ∉ form.ids ∧ ∃ e ∈ data, e.1.display = name) ∧
      validated = .error (refusal form names) ∧ submitted = .error (refusal form names)
  /-- Neither refuses anything else. -/
  known : (∀ e ∈ data, e.1.display ∈ form.ids) → ∀ status detail,
    validated ≠ .error (.refused status detail) ∧ submitted ≠ .error (.refused status detail)
  ordered : ∀ report, validated = .ok report → report.fields.map (·.1) = form.ids
  accepted : ∀ report reply, validated = .ok report → submitted = .ok reply →
    (reply.status = 200 ↔ report.isValid ∧ report.alarming = [])
  rejected : ∀ report reply, validated = .ok report → submitted = .ok reply → reply.status ≠ 200 →
    reply.status = 422 ∧ reply.blocking = if report.failing = [] then report.alarming else report.failing

theorem responseOf_ok {r : SubmissionResult} {reply : Reply} (h : responseOf r = .ok reply) :
    reply = .response (if r.accepted then 200 else 422) r.toValue := by
  unfold responseOf at h
  obtain ⟨-, -, h⟩ := bind_ok.mp h
  exact (Except.ok.inj h).symm

theorem responseOf_error {r : SubmissionResult} {e : Fault} (h : responseOf r = .error e) :
    e = .notJson ∨ e = .wrongType := by
  unfold responseOf at h
  cases hc : Json.check r.toValue with
  | error d =>
      rw [hc] at h
      exact Json.check_error _ (Except.error.inj h ▸ hc)
  | ok => simp [hc, bind, Except.bind, pure, Except.pure] at h

/-- What blocks a submission is told by the validation of the same data. -/
theorem blockers_report (hv : Validator.ofSchema v.schema = .ok v) (ho : v.validate (.map data) = .ok outcomes)
    (evaluator : Evaluator) {r : Reply} (hr : r = .content (report v.schema data outcomes
      (Submission.foundIn v.schema evaluator (.map data)))) :
    (Submission.blockers v.schema evaluator (.map data) outcomes).map (·.1) =
      if r.failing = [] then r.alarming else r.failing := by
  rw [hr, alarming_fields hv ho, failing_report, Submission.blockers]
  by_cases hall : outcomes.all (·.2.valid) = true
  · rw [if_pos hall, if_pos (Submission.failing_eq_nil.mpr hall)]
  · rw [if_neg hall, if_neg fun h => hall (Submission.failing_eq_nil.mp h), Submission.structuralBlocks_fields]

/-- Data for which a validation returns has the names of fields only, and could be checked. -/
theorem validate_ok (hv : Validator.ofSchema v.schema = .ok v) {now : Nat} {r : Reply}
    (h : (validate engine now v data).2 = .ok r) : (∀ e ∈ data, e.1.display ∈ v.schema.ids) ∧
      ∃ outcomes, v.validate (.map data) = .ok outcomes ∧ r = .content (report v.schema data outcomes
        (Submission.foundIn v.schema engine.evaluator (.map data))) := by
  have hknown : ∀ e ∈ data, e.1.display ∈ v.schema.ids := by
    by_contra hn
    push Not at hn
    rw [validate, checkNames_unknown hn] at h
    cases h
  refine ⟨hknown, ?_⟩
  rw [validate_known hv hknown] at h
  cases ho : v.validate (.map data) with
  | error e => simp [ho, Except.map] at h
  | ok outcomes =>
      rw [ho] at h
      exact ⟨outcomes, rfl, (Except.ok.inj h).symm⟩

theorem agreeing (hv : Validator.ofSchema v.schema = .ok v) (engine : Engine) (data : Entries) (now later : Nat) :
    Agreeing v.schema data (validate engine now v data).2 (submit engine later v data).2 where
  unknown h := by
    refine ⟨unknownNames v.schema data, fun name => mem_unknownNames, ?_, ?_⟩
    · rw [validate, checkNames_unknown h]
    · rw [submit, checkNames_unknown h]
  known hknown status detail := by
    rw [validate_known hv hknown]
    cases ho : v.validate (.map data) with
    | error e =>
        have he := Validator.validate_fault ho
        have hsubmit : (submit engine later v data).2 = .error e := by
          rw [submit, checkNames_known hknown, Submission.run, ho]
          rfl
        rw [hsubmit]
        constructor <;> rintro h <;> cases h <;> simp at he
    | ok outcomes =>
        obtain ⟨r, -, -, hr⟩ := submit_known hv hknown engine later ho
        refine ⟨by simp [Except.map], fun h => ?_⟩
        have he := responseOf_error (hr.symm.trans h)
        simp at he
  ordered report h := by
    obtain ⟨-, outcomes, ho, rfl⟩ := validate_ok hv h
    rw [fields_report, List.map_map, ← Validator.ofSchema_ids hv, ← (Validator.validate_ok ho).2]
    rfl
  accepted report reply h hsubmit := by
    obtain ⟨hknown, outcomes, ho, hr⟩ := validate_ok hv h
    obtain ⟨r, hblocking, haccepted, hres⟩ := submit_known hv hknown engine later ho
    obtain rfl := responseOf_ok (hres.symm.trans hsubmit)
    have hvalid : report.isValid ↔ report.failing = [] := by
      rw [hr, isValid_report, failing_report, Submission.failing_eq_nil]
    have hblocked := blockers_report hv ho _ hr
    rw [← hblocking] at hblocked
    calc (if r.accepted then 200 else 422) = 200
        ↔ r.accepted := by simp
      _ ↔ r.blocking.map (·.1) = [] := by rw [haccepted, List.map_eq_nil_iff]
      _ ↔ report.isValid ∧ report.alarming = [] := by
          rw [hblocked, hvalid]
          split <;> simp_all
  rejected report reply h hsubmit hne := by
    obtain ⟨hknown, outcomes, ho, hr⟩ := validate_ok hv h
    obtain ⟨r, hblocking, haccepted, hres⟩ := submit_known hv hknown engine later ho
    obtain rfl := responseOf_ok (hres.symm.trans hsubmit)
    rw [blocking_toValue, hblocking, blockers_report hv ho _ hr]
    refine ⟨?_, rfl⟩
    rw [Reply.status] at hne ⊢
    split at hne
    · exact absurd rfl hne
    · next hrej => rw [if_neg hrej]

end Service

open Service

/-- Whatever rules a service has and whatever it was asked for in between, it answers a validation and a submission of
the same data for a form that it serves in agreement. -/
theorem endpoints_agree {env : Environment} {files : Files} {s : Service} (hs : Service.start env files = .ok s)
    {id : String} {v : Validator} (hv : s.form id = .ok v) (engine : Engine) (data : Entries)
    (before later : List Request) :
    Agreeing v.schema data (((s.withEngine engine).after before).answer (.validate id data)).2
      (((s.withEngine engine).after later).answer (.submit id data)).2 := by
  have hcompiled := form_compiled hs hv
  have hform (requests : List Request) : ((s.withEngine engine).after requests).form id = .ok v := by
    rw [form_congr (after_serving _ requests), form_withEngine, hv]
  obtain ⟨serving, hserving, -⟩ := form_ok hv
  have hkept (requests : List Request) :
      ((s.withEngine engine).after requests).serving = some { serving with engine } := by
    rw [after_serving, withEngine, hserving]
    rfl
  rw [answer, answer, timed_served (hkept before) (hform before), timed_served (hkept later) (hform later)]
  exact agreeing hcompiled engine data _ _

/-! ## A survey with a name that does not exist -/

theorem ok_of_toOption {α : Type} {x : Except Fault α} (h : x.toOption.isSome) : x = .ok (x.toOption.get h) := by
  cases x with
  | ok => rfl
  | error => cases h

namespace Sample

def surveyFiles : Files where
  here := ⟨"/", ["app"]⟩
  texts := [(⟨"/", ["app", "forms", "survey.yaml"]⟩, String.join (List.map (· ++ "\n")
    ["form: survey", "fields:", "  - id: name", "    type: text", "    required: true", "  - id: city", "    type: text"]))]

theorem survey_starts : (Service.start [] surveyFiles).toOption.isSome := by decide +kernel

def surveyService : Service := (Service.start [] surveyFiles).toOption.get survey_starts

theorem survey_served : (surveyService.form "survey").toOption.isSome := by decide +kernel

def surveyValidator : Validator := (surveyService.form "survey").toOption.get survey_served

/-- One rule objects to every name, and another one fails on every city. -/
def surveyEngine : Engine where
  rules := [fun id _ _ _ => .ok (if id = "name" then [⟨.error, "No such name", .int 1, "", some id⟩] else []),
    fun id _ _ _ => if id = "city" then .error (.brokenRule "No map") else .ok []]

def surveyData : Entries := [(.text "name", .text "Ann"), (.text "city", .text "Rome")]

/-- The survey is listed and submitted before it is validated. -/
def surveyRequests : List Request := [.list, .submit "survey" surveyData]

/-- The answer to a validation. -/
def surveyReport : Except Fault Reply :=
  (((surveyService.withEngine surveyEngine).after surveyRequests).answer (.validate "survey" surveyData)).2

/-- The answer to a submission. -/
def surveyReply : Except Fault Reply :=
  (((surveyService.withEngine surveyEngine).after []).answer (.submit "survey" surveyData)).2

end Sample

/-- The name blocks the submission, and the validation tells so. -/
theorem endpoints_agree_survey :
    Sample.surveyReport.toOption.map (fun r => (r.isValid, r.failing, r.alarming)) = some (true, [], ["name"]) ∧
      Sample.surveyReply.toOption.map (fun r => (r.status, r.blocking)) = some (422, ["name"]) ∧
        Agreeing Sample.surveyValidator.schema Sample.surveyData Sample.surveyReport Sample.surveyReply := by
  have started : Service.start [] Sample.surveyFiles = .ok Sample.surveyService :=
    ok_of_toOption Sample.survey_starts
  have served : Sample.surveyService.form "survey" = .ok Sample.surveyValidator := ok_of_toOption Sample.survey_served
  exact ⟨by decide +kernel, by decide +kernel,
    endpoints_agree started served Sample.surveyEngine Sample.surveyData Sample.surveyRequests []⟩

end Formwork
