import Formwork.Proofs.Shapes
import Formwork.Service

/-!
A folder of forms without errors. Each file gives a form that has a validator, and the service starts with all of them
unless two files give the same form: that is noticed only when the forms are loaded.
-/

namespace Formwork

/-- The document of the file is that of the form, and names it. -/
def FormFile.Gives (f : FormFile) (s : Schema) : Prop :=
  ∃ doc, f.document = .ok doc ∧ Schema.ofValue doc = .ok s ∧ doc.require "form" = .ok (.text s.id)

/-! ## Issues -/

theorem flatMapM_mem {α β : Type} {f : α → Except Fault (List β)} {l : List α} {r : List β} (h : l.flatMapM f = .ok r) :
    ∀ a ∈ l, ∃ part, f a = .ok part ∧ ∀ b ∈ part, b ∈ r := by
  -- What is done so far is kept in reverse, so the induction also says where that goes.
  have key (l : List α) (done : List (List β)) (h : List.flatMapM.loop f l done = .ok r) :
      (∀ part ∈ done, ∀ b ∈ part, b ∈ r) ∧ ∀ a ∈ l, ∃ part, f a = .ok part ∧ ∀ b ∈ part, b ∈ r := by
    induction l generalizing done with
    | nil =>
        have hr : done.reverse.flatten = r := Except.ok.inj h
        refine ⟨fun part hp b hb => hr ▸ ?_, by simp⟩
        exact List.mem_flatten.mpr ⟨part, List.mem_reverse.mpr hp, hb⟩
    | cons a l ih =>
        obtain ⟨part, ha, h⟩ := bind_ok.mp h
        obtain ⟨hdone, hall⟩ := ih _ h
        refine ⟨fun p hp => hdone p (List.mem_cons_of_mem _ hp), List.forall_mem_cons.mpr ⟨?_, hall⟩⟩
        exact ⟨part, ha, hdone part List.mem_cons_self⟩
  exact (key l [] h).2

namespace Issue

variable {files : Files} {folder : Path} {strict : Bool} {issues : List Issue} {f : FormFile}

theorem errorCount_eq_zero : errorCount issues = 0 ↔ ∀ i ∈ issues, i.isWarning := by
  simp [errorCount, List.filter_eq_nil_iff]

theorem defectIssues_ok {file : Path} {doc : Value} (h : defectIssues file doc = .ok issues)
    (hw : ∀ i ∈ issues, i.isWarning) : ∃ s v, Schema.ofValue doc = .ok s ∧ Validator.ofSchema s = .ok v := by
  unfold defectIssues at h
  split at h
  · next v hv =>
      obtain ⟨s, hs, hv⟩ := bind_ok.mp hv
      exact ⟨s, v, hs, hv⟩
  · cases h
    cases hw _ (List.mem_singleton.mpr rfl)
  · cases h

/-- A document without errors gives a form that has a validator. -/
theorem ofDocument_ok {file : Path} {doc : Value} (h : ofDocument file doc = .ok issues)
    (hw : ∀ i ∈ issues, i.isWarning) :
    Shape.form.Fits doc ∧ ∃ s v, Schema.ofValue doc = .ok s ∧ Validator.ofSchema s = .ok v := by
  unfold ofDocument at h
  split at h
  · next hnone =>
      obtain ⟨defects, hd, h⟩ := bind_ok.mp h
      cases h
      exact ⟨Shape.complaintsAbout_eq_nil.mp hnone,
        defectIssues_ok hd fun i hi => hw i (List.mem_append_left _ hi)⟩
  · next hsome =>
      cases h
      obtain ⟨c, hc⟩ := List.exists_mem_of_ne_nil _ hsome
      cases hw _ (List.mem_map_of_mem hc)

theorem ofFile_ok (h : ofFile f = .ok issues) (hw : ∀ i ∈ issues, i.isWarning) :
    ∃ s, f.Gives s ∧ s.isKey ∧ ∃ v, Validator.ofSchema s = .ok v := by
  unfold ofFile at h
  split at h
  · cases h
    cases hw _ (List.mem_singleton.mpr rfl)
  · cases h
  · cases h
    cases hw _ (List.mem_singleton.mpr rfl)
  · next doc hdoc hd =>
      obtain ⟨hfits, s, v, hs, hv⟩ := ofDocument_ok h hw
      exact ⟨s, ⟨doc, hd, hs, Schema.named_of_fits hfits hs⟩, Schema.isKey_of_fits hfits hs, v, hv⟩

/-- To count warnings as errors changes nothing about what is found. -/
theorem ofFolder_strict (h : ofFolder files folder strict = .ok issues) (strict' : Bool) :
    ∃ issues', ofFolder files folder strict' = .ok issues' := by
  unfold ofFolder at h ⊢
  split
  · next hf =>
      rw [if_pos hf] at h
      obtain ⟨found, hfound, -⟩ := bind_ok.mp h
      exact ⟨_, bind_ok.mpr ⟨found, hfound, rfl⟩⟩
  · exact ⟨_, rfl⟩

/-- A folder without errors: every file gives a form that has a validator. -/
theorem ofFolder_ok (h : ofFolder files folder strict = .ok issues) (he : errorCount issues = 0) :
    ∀ f ∈ FormFile.inFolder files folder, ∃ s, f.Gives s ∧ s.isKey ∧ ∃ v, Validator.ofSchema s = .ok v := by
  rw [errorCount_eq_zero] at he
  unfold ofFolder at h
  split at h
  · obtain ⟨found, hfound, h⟩ := bind_ok.mp h
    -- If warnings count as errors there are none of either kind.
    have hwarnings : ∀ i ∈ found, i.isWarning := by
      intro i hi
      cases h
      cases strict with
      | false => exact he i hi
      | true => cases he _ (List.mem_map_of_mem hi)
    intro f hf
    obtain ⟨part, hpart, hmem⟩ := flatMapM_mem hfound f hf
    exact ofFile_ok hpart fun i hi => hwarnings i (hmem i hi)
  · cases h
    cases he _ (List.mem_singleton.mpr rfl)

end Issue

/-! ## Loading -/

namespace FormLibrary

variable {l : FormLibrary} {f : FormFile} {s : Schema} {fs : List FormFile} {forms : List Schema}

theorem source?_eq_none : l.source? s.id = none ↔ s.id ∉ l.ids := by
  simp [source?, entry?, ids, List.find?_eq_none]

theorem isForm_of_require {doc v : Value} (h : doc.require "form" = .ok v) : isForm doc = .ok true := by
  obtain ⟨es, rfl⟩ := Value.require_isMap h
  have hsome : es.find? (.text "form") = some v := by
    simp only [Value.require] at h
    split at h
    · next w hw => exact hw.trans (congrArg some (Except.ok.inj h))
    · cases h
  cases es with
  | nil => cases hsome
  | cons e es => simp [isForm, Value.isTrue, Value.mentions, Entries.has, hsome]

theorem add_of_gives (h : f.Gives s) : l.add f = match l.source? s.id with
    | some first => .error (.defect (.duplicateForm s.id f.path.name first.name))
    | none => .ok ⟨l.entries ++ [(s, f.path)]⟩ := by
  obtain ⟨doc, hd, hs, hn⟩ := h
  rw [add, hd]
  simp only [isForm_of_require hn, hs, bind, Except.bind, if_true]
  cases l.source? s.id <;> rfl

/-- Forms of different ids are all loaded, in the order of their files. -/
theorem addAll_of_gives (h : List.Forall₂ FormFile.Gives fs forms) (hn : (l.ids ++ forms.map (·.id)).Nodup) :
    addAll l fs = (⟨l.entries ++ forms.zip (fs.map (·.path))⟩, none) := by
  induction h generalizing l with
  | nil => simp [addAll]
  | @cons f s fs forms hf _ ih =>
      have hfresh : s.id ∉ l.ids := fun hm => (List.nodup_append.mp hn).2.2 _ hm _ (by simp) rfl
      have hids : (⟨l.entries ++ [(s, f.path)]⟩ : FormLibrary).ids = l.ids ++ [s.id] := by simp [ids]
      rw [addAll, add_of_gives hf, source?_eq_none.mpr hfresh]
      dsimp only
      rw [ih (by rw [hids]; simpa using hn)]
      simp

/-- Of forms that share an id with each other or with one that is there, one is not loaded. -/
theorem addAll_shared (h : List.Forall₂ FormFile.Gives fs forms) (hl : l.ids.Nodup)
    (hn : ¬(l.ids ++ forms.map (·.id)).Nodup) :
    ∃ form second first, (addAll l fs).2 = some (.defect (.duplicateForm form second first)) := by
  induction h generalizing l with
  | nil => exact absurd (by simpa using hl) hn
  | @cons f s fs forms hf _ ih =>
      rw [addAll, add_of_gives hf]
      cases hs : l.source? s.id with
      | some first => exact ⟨_, _, _, rfl⟩
      | none =>
          have hfresh := source?_eq_none.mp hs
          have hids : (⟨l.entries ++ [(s, f.path)]⟩ : FormLibrary).ids = l.ids ++ [s.id] := by simp [ids]
          refine ih ?_ ?_
          · rw [hids]
            refine List.nodup_append.mpr ⟨hl, List.nodup_singleton _, fun a ha b hb hab => hfresh ?_⟩
            rw [← List.mem_singleton.mp hb, ← hab]
            exact ha
          · rw [hids]
            simpa using hn

theorem loadAll_of_gives {files : Files} {folder : Path}
    (h : List.Forall₂ FormFile.Gives (FormFile.inFolder files folder) forms) (hn : (forms.map (·.id)).Nodup) :
    loadAll files folder = .ok ⟨forms.zip ((FormFile.inFolder files folder).map (·.path))⟩ := by
  rw [loadAll, load, addAll_of_gives h (by simpa [ids] using hn)]
  rfl

theorem loadAll_of_failure {files : Files} {folder : Path} {e : Fault} (h : (load files folder).2 = some e) :
    loadAll files folder = .error e := by
  rw [loadAll]
  rcases hl : load files folder with ⟨l, failure⟩
  rw [hl] at h
  cases h
  rfl

theorem loadAll_shared {files : Files} {folder : Path}
    (h : List.Forall₂ FormFile.Gives (FormFile.inFolder files folder) forms) (hn : ¬(forms.map (·.id)).Nodup) :
    ∃ form second first, loadAll files folder = .error (.defect (.duplicateForm form second first)) := by
  obtain ⟨form, second, first, he⟩ := addAll_shared (l := {}) h (by simp [ids]) (by simpa [ids] using hn)
  exact ⟨form, second, first, loadAll_of_failure he⟩

end FormLibrary

/-! ## Starting -/

namespace Serving

variable {s : Serving} {form : Schema} {v : Validator}

theorem prepare_of_validator (hk : form.isKey) (hv : Validator.ofSchema form = .ok v) :
    ∃ validators, s.prepare form = .ok { s with validators } := by
  have hget : ∃ u validators, s.validators.get form = .ok (u, validators) := by
    rw [ValidatorCache.get, hk]
    cases s.validators.find? form with
    | some u => exact ⟨u, _, rfl⟩
    | none => exact ⟨v, _, by rw [hv]; rfl⟩
  obtain ⟨u, validators, hget⟩ := hget
  exact ⟨validators, by rw [prepare, hget]⟩

/-- Forms with validators are all prepared, and none is noted as broken. -/
theorem prepare_all {forms : List Schema} (h : ∀ form ∈ forms, form.isKey ∧ ∃ v, Validator.ofSchema form = .ok v) :
    ∃ validators, forms.foldlM prepare s = .ok { s with validators } := by
  induction forms generalizing s with
  | nil => exact ⟨s.validators, rfl⟩
  | cons form forms ih =>
      obtain ⟨⟨hk, v, hv⟩, h⟩ := List.forall_mem_cons.mp h
      obtain ⟨validators, hp⟩ := prepare_of_validator (s := s) hk hv
      obtain ⟨validators', hall⟩ := ih (s := { s with validators }) h
      exact ⟨validators', by rw [List.foldlM_cons, hp]; exact hall⟩

end Serving

/-- A service that looked for issues starts with what is loaded. -/
theorem Service.start_eq {env : Environment} {config : Config} {files : Files} {issues : List Issue}
    (hc : Config.readAt env files.here = .ok config) (hi : Issue.ofFolder files config.formsPath false = .ok issues) :
    Service.start env files = FormLibrary.loadAll files config.formsPath >>= fun library =>
      library.forms.foldlM Serving.prepare { library, engine := config.engine } >>= fun serving =>
        pure { serving := some serving } := by
  rw [Service.start, hc]
  simp only [Serving.start, hi, bind, Except.bind]
  cases FormLibrary.loadAll files config.formsPath <;> rfl

/-- What comes of the start of a service on a folder of files that give these forms. -/
structure Service.Started (env : Environment) (files : Files) (folder : Path) (forms : List Schema) : Prop where
  /-- Forms of different ids are all loaded, one for each file, and none of them is broken. -/
  loads : (forms.map (·.id)).Nodup → ∃ serving, Service.start env files = .ok { serving := some serving } ∧
    FormLibrary.loadAll files folder = .ok serving.library ∧
    serving.library.entries = forms.zip ((FormFile.inFolder files folder).map (·.path)) ∧ serving.broken = []
  /-- Two forms of one id keep the service from starting. -/
  fails : ¬(forms.map (·.id)).Nodup → ∃ form second first,
    FormLibrary.loadAll files folder = .error (.defect (.duplicateForm form second first)) ∧
    Service.start env files = .error (.defect (.duplicateForm form second first))

/-- In a folder without errors each file gives a form that has a validator, and a service that is started on it
serves them all, if no two of them share an id. -/
theorem valid_folder_starts {env : Environment} {files : Files} {config : Config} {strict : Bool} {issues : List Issue}
    (hc : Config.readAt env files.here = .ok config) (hi : Issue.ofFolder files config.formsPath strict = .ok issues)
    (he : Issue.errorCount issues = 0) :
    ∃ forms, List.Forall₂ FormFile.Gives (FormFile.inFolder files config.formsPath) forms ∧
      (∀ s ∈ forms, ∃ v, Validator.ofSchema s = .ok v) ∧ Service.Started env files config.formsPath forms := by
  obtain ⟨forms, hforms⟩ := exists_forall₂ (Issue.ofFolder_ok hi he)
  have hgives : List.Forall₂ FormFile.Gives (FormFile.inFolder files config.formsPath) forms :=
    hforms.imp fun _ _ h => h.1
  have hgood : ∀ s ∈ forms, s.isKey ∧ ∃ v, Validator.ofSchema s = .ok v := by
    have hflip := hforms.flip.imp fun s f h => And.intro h.2 h.1
    exact ((List.forall₂_and_left _ _).mp hflip).1
  obtain ⟨found, hfound⟩ := Issue.ofFolder_strict hi false
  have hstart := Service.start_eq hc hfound
  refine ⟨forms, hgives, fun s hs => (hgood s hs).2, ⟨fun hn => ?_, fun hn => ?_⟩⟩
  · obtain ⟨library, hentries, hload⟩ : ∃ library : FormLibrary,
        library.entries = forms.zip ((FormFile.inFolder files config.formsPath).map (·.path)) ∧
          FormLibrary.loadAll files config.formsPath = .ok library :=
      ⟨_, rfl, FormLibrary.loadAll_of_gives hgives hn⟩
    have hlibrary : library.forms = forms := by
      rw [FormLibrary.forms, hentries, List.map_fst_zip (by simp [hgives.length_eq])]
    obtain ⟨validators, hprepare⟩ := Serving.prepare_all (s := { library, engine := config.engine }) hgood
    refine ⟨{ library, validators, engine := config.engine }, ?_, hload, hentries, rfl⟩
    rw [hstart, hload, bind_ok]
    exact ⟨library, rfl, by rw [hlibrary, hprepare]; rfl⟩
  · obtain ⟨form, second, first, hload⟩ := FormLibrary.loadAll_shared hgives hn
    exact ⟨form, second, first, hload, by rw [hstart, hload]; rfl⟩

/-! ## Two forms -/

namespace Sample

def formsFolder : Path := ⟨"/", ["app", "forms"]⟩

/-- The folder with two files. -/
def twoFiles (first second : String) : Files where
  here := ⟨"/", ["app"]⟩
  texts := [(formsFolder.child "one.yaml", first), (formsFolder.child "two.yaml", second)]

def formText (id : String) : String := "form: " ++ id ++ "\ntitle: Form\nfields: []\n"

def sharedFiles : Files := twoFiles (formText "same") (formText "same")

def distinctFiles : Files := twoFiles (formText "first") (formText "second")

def formFiles (first second : String) : List FormFile :=
  [⟨formsFolder.child "one.yaml", Yaml.valueOf first⟩, ⟨formsFolder.child "two.yaml", Yaml.valueOf second⟩]

theorem inFolder_twoFiles (first second : String) :
    FormFile.inFolder (twoFiles first second) formsFolder = formFiles first second := by
  have hlocate : (twoFiles first second).locate formsFolder = .ok formsFolder := rfl
  have hone : "one.yaml".endsWith FormFile.ending := by decide +kernel
  have htwo : "two.yaml".endsWith FormFile.ending := by decide +kernel
  have hnames : (twoFiles first second).namesIn formsFolder FormFile.ending =
      ["one.yaml", "two.yaml"].mergeSort fun a b => !(b < a : Bool) := by
    rw [Files.namesIn, hlocate]
    simp [twoFiles, formsFolder, Files.isFolderAt, Path.parent, Path.name, Path.child, hone, htwo]
  rw [FormFile.inFolder, hnames, List.mergeSort_of_pairwise (by decide)]
  rfl

theorem ofFolder_twoFiles {first second : String}
    (h : (Issue.ofFiles false (formFiles first second)).toOption.any List.isEmpty) :
    Issue.ofFolder (twoFiles first second) formsFolder false = .ok [] := by
  have hfolder : (twoFiles first second).isFolder formsFolder := rfl
  rw [Issue.ofFolder, if_pos hfolder, inFolder_twoFiles]
  cases hi : Issue.ofFiles false (formFiles first second) with
  | error e => simp [hi, Except.toOption] at h
  | ok issues => simpa [hi, Except.toOption] using h

end Sample

/-- Nothing is wrong with two files of one id, and the service does not start with them. -/
theorem shared_id_unnoticed : Issue.ofFolder Sample.sharedFiles Sample.formsFolder false = .ok [] ∧
    ∃ e, FormLibrary.loadAll Sample.sharedFiles Sample.formsFolder = .error e ∧
      Service.start [] Sample.sharedFiles = .error e ∧
      e.message = "Duplicate form id 'same' in two.yaml and one.yaml" := by
  have hissues : Issue.ofFolder Sample.sharedFiles Sample.formsFolder false = .ok [] :=
    Sample.ofFolder_twoFiles (by decide +kernel)
  have hmessage : (FormLibrary.load Sample.sharedFiles Sample.formsFolder).2.map Fault.message =
      some "Duplicate form id 'same' in two.yaml and one.yaml" := by
    rw [FormLibrary.load, Sample.sharedFiles, Sample.inFolder_twoFiles]
    decide +kernel
  have hconfig : Config.readAt [] Sample.sharedFiles.here = .ok { formsPath := Sample.formsFolder } := rfl
  obtain ⟨e, he, hm⟩ := Option.map_eq_some_iff.mp hmessage
  have hload := FormLibrary.loadAll_of_failure he
  exact ⟨hissues, e, hload, by rw [Service.start_eq hconfig hissues, hload]; rfl, hm⟩

theorem valid_folder_starts_distinct :
    (FormLibrary.load Sample.distinctFiles Sample.formsFolder).1.ids = ["first", "second"] ∧
      Issue.ofFolder Sample.distinctFiles Sample.formsFolder false = .ok [] ∧
      ∃ forms, List.Forall₂ FormFile.Gives (FormFile.inFolder Sample.distinctFiles Sample.formsFolder) forms ∧
        (∀ s ∈ forms, ∃ v, Validator.ofSchema s = .ok v) ∧
        Service.Started [] Sample.distinctFiles Sample.formsFolder forms := by
  have hissues : Issue.ofFolder Sample.distinctFiles Sample.formsFolder false = .ok [] :=
    Sample.ofFolder_twoFiles (by decide +kernel)
  have hconfig : Config.readAt [] Sample.distinctFiles.here = .ok { formsPath := Sample.formsFolder } := rfl
  refine ⟨?_, hissues, valid_folder_starts hconfig hissues rfl⟩
  rw [FormLibrary.load, Sample.distinctFiles, Sample.inFolder_twoFiles]
  decide +kernel

end Formwork
