import Formwork.Proofs.EqualForms
import Formwork.Proofs.Served
import Formwork.Proofs.ValidFolders

/-!
Forms that cannot be used, among others. A form with a defect is refused, and every other form is served as if it were
alone. That takes two things: every form has a validator or a defect, as a form that breaks off in another way stops the
service at its start, and one form at least has a validator, as a service without any does not count as started.
-/

namespace Formwork

namespace Schema

/-- The form can be a key, and it has a validator or a defect. -/
structure Judged (s : Schema) : Prop where
  key : s.isKey
  verdict : (∃ v, Validator.ofSchema s = .ok v) ∨ ∃ d, Validator.ofSchema s = .error (.defect d)

def isJudged (s : Schema) : Bool :=
  s.isKey && match Validator.ofSchema s with
    | .ok _ | .error (.defect _) => true
    | .error _ => false

theorem isJudged_iff {s : Schema} : s.isJudged ↔ s.Judged := by
  rw [isJudged, Bool.and_eq_true]
  constructor
  · rintro ⟨hk, hv⟩
    refine ⟨hk, ?_⟩
    split at hv
    · next v h => exact .inl ⟨v, h⟩
    · next d h => exact .inr ⟨d, h⟩
    · cases hv
  · rintro ⟨hk, ⟨v, h⟩ | ⟨d, h⟩⟩ <;> exact ⟨hk, by rw [h]⟩

instance (s : Schema) : Decidable s.Judged := decidable_of_iff _ isJudged_iff

end Schema

/-! ## What a folder has when all its forms are loaded -/

namespace FormLibrary

variable {l m : FormLibrary} {f : FormFile} {fs : List FormFile}

/-- The file has a document, and if that is meant as a form the library has it. -/
def Holds (l : FormLibrary) (f : FormFile) : Prop :=
  ∃ doc meant, f.document = .ok doc ∧ isForm doc = .ok meant ∧ (meant → ∃ s ∈ l.forms, Schema.ofValue doc = .ok s)

theorem Holds.mono (h : l.Holds f) (hs : l.forms ⊆ m.forms) : m.Holds f := by
  obtain ⟨doc, meant, hd, hm, hform⟩ := h
  refine ⟨doc, meant, hd, hm, fun h => ?_⟩
  obtain ⟨s, hmem, hs'⟩ := hform h
  exact ⟨s, hs hmem, hs'⟩

theorem add_ok (h : l.add f = .ok m) : m.Holds f ∧ l.forms ⊆ m.forms ∧ (l.ids.Nodup → m.ids.Nodup) := by
  obtain ⟨doc, hd, h⟩ := bind_ok.mp h
  obtain ⟨meant, hm, h⟩ := bind_ok.mp h
  cases meant with
  | false =>
      cases h
      exact ⟨⟨doc, false, hd, hm, nofun⟩, fun s hs => hs, id⟩
  | true =>
      obtain ⟨s, hs, h⟩ := bind_ok.mp h
      cases hsource : l.source? s.id with
      | some first => simp [hsource, throw, throwThe, MonadExceptOf.throw] at h
      | none =>
          simp only [hsource, pure, Except.pure, Except.ok.injEq] at h
          subst h
          have hforms : (⟨l.entries ++ [(s, f.path)]⟩ : FormLibrary).forms = l.forms ++ [s] := by simp [forms]
          have hids : (⟨l.entries ++ [(s, f.path)]⟩ : FormLibrary).ids = l.ids ++ [s.id] := by simp [ids]
          refine ⟨⟨doc, true, hd, hm, fun _ => ⟨s, by simp [hforms], hs⟩⟩, by simp [hforms], fun hn => ?_⟩
          rw [hids]
          exact List.nodup_append.mpr ⟨hn, List.nodup_singleton _,
            fun a ha b hb hab => source?_eq_none.mp hsource (List.mem_singleton.mp hb ▸ hab ▸ ha)⟩

theorem addAll_ok (h : addAll l fs = (m, none)) :
    (∀ f ∈ fs, m.Holds f) ∧ l.forms ⊆ m.forms ∧ (l.ids.Nodup → m.ids.Nodup) := by
  induction fs generalizing l with
  | nil =>
      cases h
      exact ⟨by simp, fun s hs => hs, id⟩
  | cons f fs ih =>
      rw [addAll] at h
      cases ha : l.add f with
      | error e => simp [ha] at h
      | ok next =>
          rw [ha] at h
          obtain ⟨hholds, hsub, hn⟩ := add_ok ha
          obtain ⟨hall, hsub', hn'⟩ := ih h
          exact ⟨List.forall_mem_cons.mpr ⟨hholds.mono hsub', hall⟩, List.Subset.trans hsub hsub', hn' ∘ hn⟩

theorem map_forms_id (l : FormLibrary) : l.forms.map (·.id) = l.ids := List.map_map

/-- When all forms of a folder are loaded, every file is one of them or no form, and no two forms share an id. -/
theorem loadAll_ok {files : Files} {folder : Path} (h : loadAll files folder = .ok l) :
    (∀ f ∈ FormFile.inFolder files folder, l.Holds f) ∧ (l.forms.map (·.id)).Nodup := by
  rw [loadAll] at h
  split at h
  · next m hload =>
      cases h
      obtain ⟨hholds, -, hn⟩ := addAll_ok hload
      exact ⟨hholds, l.map_forms_id ▸ hn (by simp [ids])⟩
  · cases h

end FormLibrary

namespace Issue

variable {l : FormLibrary} {f : FormFile}

theorem flatMapM_ok {α β : Type} {f : α → Except Fault (List β)} {l : List α} (h : ∀ a ∈ l, ∃ part, f a = .ok part) :
    ∃ r, l.flatMapM f = .ok r := by
  have key (l : List α) (done : List (List β)) (h : ∀ a ∈ l, ∃ part, f a = .ok part) :
      ∃ r, List.flatMapM.loop f l done = .ok r := by
    induction l generalizing done with
    | nil => exact ⟨_, rfl⟩
    | cons a l ih =>
        obtain ⟨⟨part, ha⟩, h⟩ := List.forall_mem_cons.mp h
        obtain ⟨r, hr⟩ := ih (part :: done) h
        exact ⟨r, bind_ok.mpr ⟨part, ha, hr⟩⟩
  exact key l [] h

/-- The issues of a document are found unless its form breaks off in another way than by a defect. -/
theorem ofDocument_of_judged {file : Path} {doc : Value}
    (h : Shape.form.Fits doc → ∃ s : Schema, s.Judged ∧ Schema.ofValue doc = .ok s) :
    ∃ issues, ofDocument file doc = .ok issues := by
  unfold ofDocument
  split
  · next hnone =>
      obtain ⟨s, hj, hs⟩ := h (Shape.complaintsAbout_eq_nil.mp hnone)
      have hdefects : ∃ defects, defectIssues file doc = .ok defects := by
        rw [defectIssues, hs, Except.bind]
        rcases hj.verdict with ⟨v, hv⟩ | ⟨d, hd⟩
        · exact ⟨[], by rw [hv]⟩
        · exact ⟨_, by rw [hd]⟩
      obtain ⟨defects, hdefects⟩ := hdefects
      exact ⟨_, bind_ok.mpr ⟨defects, hdefects, rfl⟩⟩
  · exact ⟨_, rfl⟩

theorem ofFile_of_judged (hf : l.Holds f) (hj : ∀ s ∈ l.forms, s.Judged) : ∃ issues, ofFile f = .ok issues := by
  obtain ⟨doc, meant, hd, hm, hform⟩ := hf
  unfold ofFile
  rw [hd]
  split
  · next h => cases h
  · next h => cases h
  · exact ⟨_, rfl⟩
  · next doc' _ h =>
      cases h
      refine ofDocument_of_judged fun hfits => ?_
      -- A document of the right shape names its form, so it is one that has been loaded.
      have hnamed : ∃ w, doc.require "form" = .ok w := by
        cases hfits with
        | @record _ _ es there known fit =>
            obtain ⟨w, hw, -⟩ := (Shape.Fits.record there known fit).required_entry "form" (by simp) rfl
            exact ⟨w, by rw [Value.require, hw]⟩
      obtain ⟨w, hw⟩ := hnamed
      cases hm.symm.trans (FormLibrary.isForm_of_require hw)
      obtain ⟨s, hs, hread⟩ := hform rfl
      exact ⟨s, hj s hs, hread⟩

theorem ofFolder_of_judged {files : Files} {folder : Path} (strict : Bool)
    (hf : ∀ f ∈ FormFile.inFolder files folder, l.Holds f) (hj : ∀ s ∈ l.forms, s.Judged) :
    ∃ issues, ofFolder files folder strict = .ok issues := by
  unfold ofFolder
  split
  · obtain ⟨found, hfound⟩ := flatMapM_ok fun f hm => ofFile_of_judged (hf f hm) hj
    exact ⟨_, bind_ok.mpr ⟨found, hfound, rfl⟩⟩
  · exact ⟨_, rfl⟩

end Issue

/-! ## The validators and the defects of forms -/

namespace Serving

variable {s t : Serving} {form : Schema} {forms : List Schema}

/-- The forms that have a validator, with it. -/
def validatorsOf (forms : List Schema) : List (Schema × Validator) :=
  forms.filterMap fun form => (Validator.ofSchema form).toOption.map fun v => (form, v)

/-- The forms that have none, and what is wrong with each. -/
def defectsOf (forms : List Schema) : List (String × String) :=
  forms.filterMap fun form => match Validator.ofSchema form with
    | .ok _ => none
    | .error e => some (form.id, e.message)

/-- With more forms prepared. -/
def withForms (s : Serving) (forms : List Schema) : Serving :=
  { s with validators := ⟨s.validators.entries ++ validatorsOf forms⟩, broken := s.broken ++ defectsOf forms }

theorem withForms_nil (s : Serving) : s.withForms [] = s := by simp [withForms, validatorsOf, defectsOf]

theorem withForms_cons (s : Serving) (form : Schema) (forms : List Schema) :
    s.withForms (form :: forms) = (s.withForms [form]).withForms forms := by
  have hvalidators : validatorsOf (form :: forms) = validatorsOf [form] ++ validatorsOf forms :=
    List.filterMap_append (l := [form])
  have hdefects : defectsOf (form :: forms) = defectsOf [form] ++ defectsOf forms :=
    List.filterMap_append (l := [form])
  simp only [withForms, hvalidators, hdefects, List.append_assoc]

/-- No form that is kept in the cache has an id of these. -/
def Fresh (s : Serving) (forms : List Schema) : Prop := ∀ e ∈ s.validators.entries, e.1.id ∉ forms.map (·.id)

theorem Fresh.find? (h : s.Fresh (form :: forms)) : s.validators.find? form = none := by
  rw [ValidatorCache.find?, Option.map_eq_none_iff, List.find?_eq_none]
  intro e he heqv
  exact h e he (by simp [Schema.id_of_eqv heqv])

theorem Fresh.withForms (h : s.Fresh (form :: forms)) (hn : ((form :: forms).map (·.id)).Nodup) :
    (s.withForms [form]).Fresh forms := by
  intro e he
  rcases List.mem_append.mp he with he | he
  · exact fun hm => h e he (List.mem_cons_of_mem _ hm)
  · have heq : e.1 = form := by
      obtain ⟨v, -, rfl⟩ : ∃ v, Validator.ofSchema form = .ok v ∧ (form, v) = e := by
        cases hv : Validator.ofSchema form with
        | ok v => exact ⟨v, rfl, by simpa [validatorsOf, hv, Except.toOption, eq_comm] using he⟩
        | error d => simp [validatorsOf, hv, Except.toOption] at he
      rfl
    rw [heq]
    exact (List.nodup_cons.mp hn).1

/-- Preparing a form breaks off when making its validator does so for a reason that is no defect. -/
theorem prepare_of_error {e : Fault} (h : s.validators.get form = .error e) (hd : ∀ d, e ≠ .defect d) :
    s.prepare form = .error e := by
  rw [prepare, h]
  cases e with
  | defect d => exact absurd rfl (hd d)
  | _ => rfl

theorem prepare_ok_iff (hf : s.validators.find? form = none) :
    s.prepare form = .ok t ↔ form.Judged ∧ t = s.withForms [form] := by
  cases hk : form.isKey with
  | false =>
      have hp : s.prepare form = .error .wrongType :=
        prepare_of_error (by simp [ValidatorCache.get, hk]) (by simp)
      rw [hp]
      constructor
      · intro h
        cases h
      · rintro ⟨hj, -⟩
        cases hk.symm.trans hj.key
  | true =>
      have hget : s.validators.get form =
          (Validator.ofSchema form).map fun v => (v, ⟨s.validators.entries ++ [(form, v)]⟩) := by
        simp [ValidatorCache.get, hk, hf]
      cases hv : Validator.ofSchema form with
      | ok v =>
          have hj : form.Judged := ⟨hk, .inl ⟨v, hv⟩⟩
          rw [prepare, hget, hv]
          simp [Except.map, hj, withForms, validatorsOf, defectsOf, hv, Except.toOption, eq_comm]
      | error e =>
          rw [hv] at hget
          by_cases hdefect : ∃ d, e = .defect d
          · obtain ⟨d, rfl⟩ := hdefect
            have hj : form.Judged := ⟨hk, .inr ⟨d, hv⟩⟩
            have hd : defectsOf [form] = [(form.id, d.message)] := by
              rw [defectsOf, List.filterMap_cons, hv]
              rfl
            rw [prepare, hget]
            simp [Except.map, hj, withForms, validatorsOf, hd, hv, Except.toOption, eq_comm]
          · rw [prepare_of_error hget fun d he => hdefect ⟨d, he⟩]
            constructor
            · intro h
              cases h
            · rintro ⟨hj, -⟩
              rcases hj.verdict with ⟨v, h'⟩ | ⟨d, h'⟩
              · cases hv.symm.trans h'
              · exact absurd ⟨d, Except.error.inj (hv.symm.trans h')⟩ hdefect

/-- Forms of different ids are prepared when each of them is judged, and then by its own verdict. -/
theorem prepareAll_ok_iff (hf : s.Fresh forms) (hn : (forms.map (·.id)).Nodup) :
    forms.foldlM prepare s = .ok t ↔ (∀ form ∈ forms, form.Judged) ∧ t = s.withForms forms := by
  induction forms generalizing s with
  | nil => simp [withForms_nil, pure, Except.pure, eq_comm]
  | cons form forms ih =>
      rw [List.foldlM_cons, bind_ok, List.forall_mem_cons, withForms_cons]
      constructor
      · rintro ⟨next, hp, hs⟩
        obtain ⟨hj, rfl⟩ := (prepare_ok_iff hf.find?).mp hp
        obtain ⟨hall, ht⟩ := (ih (hf.withForms hn) (List.nodup_cons.mp hn).2).mp hs
        exact ⟨⟨hj, hall⟩, ht⟩
      · rintro ⟨⟨hj, hall⟩, ht⟩
        exact ⟨_, (prepare_ok_iff hf.find?).mpr ⟨hj, rfl⟩,
          (ih (hf.withForms hn) (List.nodup_cons.mp hn).2).mpr ⟨hall, ht⟩⟩

/-! ### Looking them up -/

theorem lookup_defectsOf_none {id : String} (h : id ∉ forms.map (·.id)) : (defectsOf forms).lookup id = none := by
  rw [List.lookup_eq_none_iff]
  intro e he
  obtain ⟨form, hm, heq⟩ := List.mem_filterMap.mp he
  cases hv : Validator.ofSchema form with
  | ok v => simp [hv] at heq
  | error d =>
      simp only [hv, Option.some.injEq] at heq
      subst heq
      have hne : form.id ≠ id := fun heq => h (List.mem_map.mpr ⟨form, hm, heq⟩)
      simpa using Ne.symm hne

theorem lookup_defectsOf (hn : (forms.map (·.id)).Nodup) (hm : form ∈ forms) :
    (defectsOf forms).lookup form.id = match Validator.ofSchema form with
      | .ok _ => none
      | .error e => some e.message := by
  induction forms with
  | nil => cases hm
  | cons other forms ih =>
      obtain ⟨hfresh, hn⟩ := List.nodup_cons.mp hn
      rcases List.mem_cons.mp hm with rfl | hm
      · cases hv : Validator.ofSchema form with
        | ok v => simpa [defectsOf, hv] using lookup_defectsOf_none hfresh
        | error e => simp [defectsOf, hv]
      · have hne : (form.id == other.id) = false := beq_eq_false_iff_ne.mpr fun heq =>
          hfresh (List.mem_map.mpr ⟨form, hm, heq⟩)
        rw [← ih hn hm]
        cases hv : Validator.ofSchema other with
        | ok v => simp [defectsOf, hv]
        | error e => simp [defectsOf, hv, List.lookup_cons, hne]

theorem isBroken_eq (s : Serving) (id : String) : s.isBroken id = (s.broken.lookup id).isSome := by
  rw [isBroken]
  induction s.broken with
  | nil => rfl
  | cons e broken ih =>
      by_cases h : id = e.1
      · simp [h]
      · rw [List.any_cons, ih, List.lookup_cons, beq_eq_false_iff_ne.mpr h, decide_eq_false (Ne.symm h), Bool.false_or]

/-- The cache gives a form its own validator, kept or new. -/
theorem get_validatorsOf {v : Validator} (hn : (forms.map (·.id)).Nodup) (hm : form ∈ forms) (hk : form.isKey)
    (hv : Validator.ofSchema form = .ok v) :
    ((⟨validatorsOf forms⟩ : ValidatorCache).get form).map (·.1) = .ok v := by
  rw [ValidatorCache.get, hk]
  cases hf : ValidatorCache.find? ⟨validatorsOf forms⟩ form with
  | none => simp [hv, Except.map]
  | some u =>
      obtain ⟨e, he, rfl⟩ := Option.map_eq_some_iff.mp hf
      obtain ⟨other, hother, heq⟩ := List.mem_filterMap.mp (List.mem_of_find?_eq_some he)
      obtain ⟨w, hw, rfl⟩ := Option.map_eq_some_iff.mp heq
      have heqv : other.eqv form := List.find?_some (p := fun e : Schema × Validator => e.1.eqv form) he
      have hsame : other = form := List.inj_on_of_nodup_map hn hother hm (Schema.id_of_eqv heqv)
      subst hsame
      rw [hv] at hw
      simpa [Except.map] using (Option.some.inj hw).symm

end Serving

namespace FormLibrary

variable {l : FormLibrary} {form : Schema}

theorem form?_of_mem (hn : (l.forms.map (·.id)).Nodup) (hm : form ∈ l.forms) : l.form? form.id = some form := by
  rw [map_forms_id] at hn
  obtain ⟨e, he, rfl⟩ := List.mem_map.mp hm
  cases hf : l.entry? e.1.id with
  | none => exact absurd (List.find?_eq_none.mp hf e he) (by simp)
  | some found =>
      have hid : found.1.id = e.1.id := by simpa using List.find?_some hf
      have hsame : found = e :=
        List.inj_on_of_nodup_map (f := fun e : Schema × Path => e.1.id) hn (List.mem_of_find?_eq_some hf) he hid
      rw [form?, hf, hsame, Option.map_some]

end FormLibrary

/-! ## Answers about one form -/

/-- What can be asked about a form. -/
inductive FormRequest
  | get
  | validate (data : Entries)
  | submit (data : Entries)

namespace FormRequest

def about (id : String) : FormRequest → Request
  | get => .get id
  | validate data => .validate id data
  | submit data => .submit id data

/-- The answer for a validator, which is that of a service with no other form. -/
def answered (engine : Engine) (now : Nat) (v : Validator) : FormRequest → Except Fault Reply
  | get => .ok (.content (Service.description v))
  | validate data => (Service.validate engine now v data).2
  | submit data => (Service.submit engine now v data).2

end FormRequest

namespace Service

/-- A form as it is listed: it is valid if it has a validator. -/
def listing (form : Schema) : Value :=
  .record [("id", .text form.id), ("title", form.title), ("description", form.description),
    ("fieldCount", .int form.fields.length), ("advisoryEnabled", .bool form.advisoryEnabled),
    ("valid", .bool (Validator.ofSchema form).toOption.isSome)]

/-- What a service that has started answers about its forms. -/
structure ServesApart (s : Service) (forms : List Schema) (engine : Engine) : Prop where
  listed : (s.answer .list).2 = .ok (.content (.record [("forms", .list (forms.map listing))]))
  /-- A form with a validator is served, whatever the other forms are. -/
  served : ∀ form ∈ forms, ∀ v, Validator.ofSchema form = .ok v → ∀ ask : FormRequest,
    (s.answer (ask.about form.id)).2 = ask.answered engine s.now v
  /-- A form with a defect is refused for its defect, whatever the other forms are, if any of them is served. -/
  refused : ∀ form ∈ forms, ∀ d, Validator.ofSchema form = .error (.defect d) →
    (∃ other ∈ forms, ∃ v, Validator.ofSchema other = .ok v) → ∀ ask : FormRequest,
      (s.answer (ask.about form.id)).2 = .error (.refused 422 s!"Form '{form.id}' is invalid: {d.message}")
  /-- Without any form that is served the service does not count as started. -/
  unstarted : (∀ form ∈ forms, ∀ v, Validator.ofSchema form ≠ .ok v) → ∀ id, ∀ ask : FormRequest,
    (s.answer (ask.about id)).2 = .error notStarted

variable {s : Service} {library : FormLibrary} {engine : Engine} {form : Schema}

/-- What is served when the forms of a library have been prepared. -/
def prepared (library : FormLibrary) (engine : Engine) : Serving :=
  ({ library, engine } : Serving).withForms library.forms

theorem answer_about {serving : Serving} (hs : s.serving = some serving) (id : String) (ask : FormRequest) :
    (s.answer (ask.about id)).2 = (s.form id).bind fun v => ask.answered serving.engine s.now v := by
  have hrunning : s.running = .ok serving := by rw [running, hs]
  cases ask with
  | get => cases hf : s.form id <;> simp [FormRequest.about, answer, hf, Except.bind, Except.map, FormRequest.answered]
  | validate data | submit data =>
      cases hf : s.form id <;> simp [FormRequest.about, answer, timed, hrunning, hf, Except.bind, FormRequest.answered]

theorem form_of_size {serving : Serving} (hs : s.serving = some serving) (id : String) :
    s.form id = if serving.validators.size = 0 then .error notStarted else serving.form id := by
  rw [form, running, hs]
  simp only [bind, Except.bind]
  split <;> rfl

/-- A service starts on a folder, all forms of which are loaded, if each of them is judged. -/
theorem start_ok_iff {env : Environment} {files : Files} {config : Config}
    (hc : Config.readAt env files.here = .ok config) (hl : FormLibrary.loadAll files config.formsPath = .ok library) :
    start env files = .ok s ↔
      (∀ form ∈ library.forms, form.Judged) ∧ s = { serving := some (prepared library config.engine) } := by
  obtain ⟨hholds, hn⟩ := FormLibrary.loadAll_ok hl
  have hfresh : ({ library, engine := config.engine } : Serving).Fresh library.forms := nofun
  constructor
  · intro h
    obtain ⟨config', hc', h⟩ := bind_ok.mp h
    cases hc.symm.trans hc'
    obtain ⟨serving, hserving, h⟩ := bind_ok.mp h
    cases h
    obtain ⟨issues, -, hserving⟩ := bind_ok.mp hserving
    obtain ⟨library', hl', hserving⟩ := bind_ok.mp hserving
    cases hl.symm.trans hl'
    obtain ⟨hj, rfl⟩ := (Serving.prepareAll_ok_iff hfresh hn).mp hserving
    exact ⟨hj, rfl⟩
  · rintro ⟨hj, rfl⟩
    obtain ⟨issues, hissues⟩ := Issue.ofFolder_of_judged false hholds hj
    rw [start_eq hc hissues]
    exact bind_ok.mpr ⟨library, hl, bind_ok.mpr ⟨_, (Serving.prepareAll_ok_iff hfresh hn).mpr ⟨hj, rfl⟩, rfl⟩⟩

theorem isBroken_prepared (hn : (library.forms.map (·.id)).Nodup) (hm : form ∈ library.forms) :
    (prepared library engine).isBroken form.id = !(Validator.ofSchema form).toOption.isSome := by
  have hlookup : (prepared library engine).broken.lookup form.id = _ := Serving.lookup_defectsOf hn hm
  rw [Serving.isBroken_eq, hlookup]
  cases Validator.ofSchema form <;> rfl

theorem list_prepared (hs : s.serving = some (prepared library engine)) (hn : (library.forms.map (·.id)).Nodup) :
    (s.answer .list).2 = .ok (.content (.record [("forms", .list (library.forms.map listing))])) := by
  have hsummary : library.forms.map (prepared library engine).summary = library.forms.map listing := by
    refine List.map_congr_left fun form hm => ?_
    rw [Serving.summary, isBroken_prepared hn hm, Bool.not_not, listing]
  rw [answer, running, hs, ← hsummary]
  rfl

theorem validatorsOf_ne_nil {forms : List Schema} :
    Serving.validatorsOf forms ≠ [] ↔ ∃ form ∈ forms, ∃ v, Validator.ofSchema form = .ok v := by
  simp only [Serving.validatorsOf, ne_eq, List.filterMap_eq_nil_iff, not_forall, exists_prop, Option.map_eq_none_iff]
  refine exists_congr fun form => and_congr_right fun _ => ?_
  cases Validator.ofSchema form <;> simp [Except.toOption]

/-- A form of a library is served or refused by its own verdict if one of them is served, and none is if there is
none. -/
theorem form_prepared (hs : s.serving = some (prepared library engine)) (hn : (library.forms.map (·.id)).Nodup)
    (hm : form ∈ library.forms) (hk : form.isKey)
    (hone : ∃ other ∈ library.forms, ∃ v, Validator.ofSchema other = .ok v) :
    s.form form.id = match Validator.ofSchema form with
      | .ok v => .ok v
      | .error e => .error (.refused 422 s!"Form '{form.id}' is invalid: {e.message}") := by
  have hsize : (prepared library engine).validators.size ≠ 0 := fun h =>
    validatorsOf_ne_nil.mpr hone (List.length_eq_zero_iff.mp h)
  have hlookup : (prepared library engine).broken.lookup form.id = _ := Serving.lookup_defectsOf hn hm
  have hform : (prepared library engine).library.form? form.id = some form := FormLibrary.form?_of_mem hn hm
  rw [form_of_size hs, if_neg hsize, Serving.form, hform, hlookup]
  cases hv : Validator.ofSchema form with
  | ok v => exact Serving.get_validatorsOf hn hm hk hv
  | error e => rfl

theorem servesApart_prepared (hs : s.serving = some (prepared library engine))
    (hn : (library.forms.map (·.id)).Nodup) (hj : ∀ form ∈ library.forms, form.Judged) :
    s.ServesApart library.forms engine where
  listed := list_prepared hs hn
  served form hm v hv ask := by
    rw [answer_about hs, form_prepared hs hn hm (hj form hm).key ⟨form, hm, v, hv⟩, hv]
    rfl
  refused form hm d hd hone ask := by
    rw [answer_about hs, form_prepared hs hn hm (hj form hm).key hone, hd]
    rfl
  unstarted hnone id ask := by
    have hsize : (prepared library engine).validators.size = 0 := by
      refine List.length_eq_zero_iff.mpr ?_
      by_contra h
      obtain ⟨form, hm, v, hv⟩ := validatorsOf_ne_nil.mp h
      exact hnone form hm v hv
    rw [answer_about hs, form_of_size hs, if_pos hsize]
    rfl

end Service

namespace Sample

/-- A form that has a field with some lines of its own. -/
def fieldText (id : String) (lines : List String) : String :=
  String.join ((["form: " ++ id, "title: Form", "fields:", "  - id: name"] ++ lines).map (· ++ "\n"))

def choicelessText : String := fieldText "odd" ["    type: select"]

def patternText : String := fieldText "odd" ["    type: text", "    validation:", "      pattern: 5"]

/-- The second form has a field that offers no choice. -/
def choicelessFiles : Files := twoFiles (formText "fine") choicelessText

/-- The second form has a field with a number for a pattern. -/
def patternFiles : Files := twoFiles (formText "fine") patternText

/-- Both forms have a field that offers no choice. -/
def brokenFiles : Files := twoFiles choicelessText (fieldText "even" ["    type: radio"])

/-- What is known of each form of a library: its id, whether it is judged, and whether it has a validator. -/
def verdicts (l : FormLibrary) : List (String × Bool × Bool) :=
  l.forms.map fun form => (form.id, form.isJudged, (Validator.ofSchema form).toOption.isSome)

def verdictsOf (first second : String) : Option (List (String × Bool × Bool)) :=
  match FormLibrary.addAll {} (formFiles first second) with
  | (l, none) => some (verdicts l)
  | (_, some _) => none

variable {first second : String} {found : List (String × Bool × Bool)}

theorem twoFiles_load (h : verdictsOf first second = some found) :
    ∃ library, FormLibrary.loadAll (twoFiles first second) formsFolder = .ok library ∧ verdicts library = found := by
  rw [FormLibrary.loadAll, FormLibrary.load, inFolder_twoFiles]
  unfold verdictsOf at h
  split at h
  · next l hl => exact ⟨l, by simp only [hl], Option.some.inj h⟩
  · cases h

theorem judged_of_verdicts {library : FormLibrary} (h : verdicts library = found) :
    (∀ form ∈ library.forms, form.Judged) ↔ found.all fun v => v.2.1 := by
  subst h
  simp [verdicts, Schema.isJudged_iff]

def config : Config where
  formsPath := formsFolder

theorem readAt_twoFiles (first second : String) : Config.readAt [] (twoFiles first second).here = .ok config := rfl

end Sample

end Formwork
