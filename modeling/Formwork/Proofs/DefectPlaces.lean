import Formwork.Proofs.Redactions
import Mathlib.Data.List.Induction

/-!
Where a defect is reported. A document whose form has a defect gets one error, and that stands at the last field with the id
of the first field at fault: elsewhere than the fault itself if a later field has that id too.
-/

namespace Formwork

/-- The last place of a list where something holds. -/
theorem getLast?_zipIdx_filter {α : Type} (p : α → Bool) {l : List α} {k : Nat} {a : α} (hk : l[k]? = some a) (ha : p a) :
    ∃ j b, (l.zipIdx.filter fun e => p e.1).getLast? = some (b, j) ∧ l[j]? = some b ∧ p b ∧
      ∀ i c, l[i]? = some c → p c → i ≤ j := by
  induction l using List.reverseRecOn with
  | nil => cases hk
  | append_singleton l x ih =>
      rw [List.zipIdx_append, List.filter_append]
      by_cases hx : p x
      · refine ⟨l.length, x, by simp [hx], by simp, hx, fun i c hi _ => ?_⟩
        have hlt := (List.getElem?_eq_some_iff.mp hi).1
        rw [List.length_append, List.length_singleton] at hlt
        omega
      · have hshorter (i : Nat) (c : α) (hi : (l ++ [x])[i]? = some c) (hc : p c) : l[i]? = some c := by
          rw [List.getElem?_append] at hi
          split at hi
          · exact hi
          · have hxc : c = x := by
              obtain ⟨hlt, hget⟩ := List.getElem?_eq_some_iff.mp hi
              simpa using hget.symm
            exact absurd (hxc ▸ hc) hx
        obtain ⟨j, b, hlast, hj, hb, hmax⟩ := ih (hshorter k a hk ha)
        refine ⟨j, b, by simpa [hx] using hlast, ?_, hb, fun i c hi hc => hmax i c (hshorter i c hi hc) hc⟩
        rw [List.getElem?_append_left (List.getElem?_eq_some_iff.mp hj).1, hj]

theorem isGreatest_eq_iff {α : Type} {l : List α} {a : α} {j k : Nat} (hk : l[k]? = some a)
    (hj : IsGreatest {i | l[i]? = some a} j) : j = k ↔ a ∉ l.drop (k + 1) := by
  constructor
  · rintro rfl hm
    obtain ⟨i, hi⟩ := List.getElem?_of_mem hm
    rw [List.getElem?_drop] at hi
    have hle := hj.2 hi
    omega
  · intro hm
    refine (Nat.le_of_not_lt fun hlt => hm ?_).antisymm (hj.2 hk)
    have hdrop : (l.drop (k + 1))[j - (k + 1)]? = some a := by
      rw [List.getElem?_drop, Nat.add_sub_cancel' hlt]
      exact hj.1
    exact List.mem_of_getElem? hdrop

namespace Issue

variable {file : Path} {doc : Value} {s : Schema} {issues : List Issue}

theorem ids_of_fits (h : Shape.form.Fits doc) (hs : Schema.ofValue doc = .ok s) :
    (fieldsOf doc).map (entry · "id") = s.ids.map .text := by
  obtain ⟨hfits, hread⟩ := Schema.fieldsOf_of_fits h hs
  rw [Schema.ids, List.map_map, ← List.forall₂_eq_eq_eq, List.forall₂_map_left_iff, List.forall₂_map_right_iff]
  exact ((List.forall₂_and_left _ _).mpr ⟨hfits, hread⟩).imp fun v f h => Field.entry_id h.1 h.2

theorem placeOf_eq (h : Shape.form.Fits doc) (hs : Schema.ofValue doc = .ok s) {k : Nat} {id : String}
    (hk : s.ids[k]? = some id) :
    ∃ j : Nat, IsGreatest {i | s.ids[i]? = some id} j ∧ placeOf doc (some id) = s!"fields[{j}]" := by
  have hids (i : Nat) : ((fieldsOf doc)[i]?.map (entry · "id")) = s.ids[i]?.map .text := by
    rw [← List.getElem?_map, ids_of_fits h hs, List.getElem?_map]
  have hnamed (i : Nat) : s.ids[i]? = some id ↔ ∃ v, (fieldsOf doc)[i]? = some v ∧ (entry v "id").eqv (.text id) := by
    have hmap : s.ids[i]? = some id ↔ (fieldsOf doc)[i]?.map (entry · "id") = some (.text id) := by
      rw [hids, Option.map_eq_some_iff]
      simp
    rw [hmap, Option.map_eq_some_iff]
    simp only [Value.eqv_text]
  obtain ⟨v, hv, hid⟩ := (hnamed k).mp hk
  obtain ⟨j, u, hlast, hj, hu, hmax⟩ := getLast?_zipIdx_filter (fun v => (entry v "id").eqv (.text id)) hv hid
  refine ⟨j, ⟨(hnamed j).mpr ⟨u, hj, hu⟩, fun i hi => ?_⟩, ?_⟩
  · obtain ⟨w, hw, hwid⟩ := (hnamed i).mp hi
    exact hmax i w hw hwid
  · rw [placeOf, Value.ofText?]
    simp only [hlast]

theorem warnings_isWarning (file : Path) (doc : Value) : ∀ i ∈ warnings file doc, i.isWarning := by
  intro i hi
  obtain ⟨e, -, he⟩ := List.mem_flatMap.mp hi
  rw [warningsAt] at he
  split at he
  · cases he
  · obtain ⟨name, -, rfl⟩ := List.mem_map.mp he
    rfl

theorem errors_warnings (file : Path) (doc : Value) : ((warnings file doc).filter fun i => !i.isWarning) = [] :=
  List.filter_eq_nil_iff.mpr fun i hi => by simp [warnings_isWarning file doc i hi]

/-- A document of the right shape is looked at for a defect, and then for limits without effect. -/
theorem ofFile_of_fits {f : FormFile} (hd : f.document = .ok doc) (h : Shape.form.Fits doc) :
    ofFile f = (defectIssues f.path doc).map (· ++ warnings f.path doc) := by
  obtain ⟨es, rfl⟩ := Value.isMap_of_fits h
  rw [ofFile, hd]
  dsimp only
  rw [ofDocument, Shape.complaintsAbout_eq_nil.mpr h]
  cases defectIssues f.path (.map es) <;> rfl

theorem defectIssues_eq (hs : Schema.ofValue doc = .ok s) : defectIssues file doc = match Validator.ofSchema s with
    | .ok _ => .ok []
    | .error (.defect d) => .ok [{ file, message := d.message, place := placeOf doc d.field? }]
    | .error e => .error e := by
  rw [defectIssues, hs]
  rfl

theorem ofFile_of_error {f : FormFile} {e : Fault} (hd : f.document = .ok doc) (h : Shape.form.Fits doc)
    (hs : Schema.ofValue doc = .ok s) (hv : Validator.ofSchema s = .error e) :
    (∃ d, e = .defect d ∧ ofFile f =
        .ok ({ file := f.path, message := d.message, place := placeOf doc d.field? } :: warnings f.path doc)) ∨
      (∀ d, e ≠ .defect d) ∧ ofFile f = .error e := by
  have hfile := ofFile_of_fits hd h
  rw [defectIssues_eq hs, hv] at hfile
  cases e with
  | defect d => exact .inl ⟨d, rfl, hfile⟩
  | _ => exact .inr ⟨nofun, hfile⟩

theorem pattern_unreadable (h : Shape.form.Fits doc) (hs : Schema.ofValue doc = .ok s) {field : Field}
    (hm : field ∈ s.fields) {form : String} {checks : List Check} {e : Fault}
    (he : Validator.checkAfter form checks field = .error e) (hn : ∀ d, e ≠ .defect d) : ¬ field.PatternReadable := by
  intro hr
  obtain ⟨v, -, hfits, hread⟩ := Schema.field_of_fits h hs hm
  obtain ⟨d, hd⟩ := Validator.checkAfter_error (Field.patternGiven_of_fits hfits hread) hr he
  exact hn d hd

/-- The form of a document of the right shape has a first field with which it has no validator. If a defect is found there,
it is reported as the only error, at the last field with the id of that field. Otherwise the pattern of that field breaks
the search off. -/
theorem defect_at_last_namesake {f : FormFile} (hd : f.document = .ok doc) (h : Shape.form.Fits doc)
    (hn : ¬ doc.HasValidator) :
    ∃ s k field, Schema.ofValue doc = .ok s ∧ s.fields[k]? = some field ∧
      IsLeast {j | ¬ (doc.cutFields (j + 1)).HasValidator} k ∧
      ((∃ (issues : List Issue) (d : Defect) (j : Nat), ofFile f = .ok issues ∧
          (issues.filter fun i => !i.isWarning) =
            [{ file := f.path, message := d.message, place := s!"fields[{j}]" }] ∧
          d.field? = some field.id ∧ IsGreatest {i | s.ids[i]? = some field.id} j ∧
          (j = k ↔ field.id ∉ s.ids.drop (k + 1))) ∨
        ¬ field.PatternReadable ∧ ∃ e, (∀ d, e ≠ .defect d) ∧ ofFile f = .error e) := by
  obtain ⟨s, hs⟩ := Schema.ofValue_of_fits h
  cases hv : Validator.ofSchema s with
  | ok v => exact absurd ⟨s, hs, v, hv⟩ hn
  | error e =>
      obtain ⟨k, field, checks, hk, hleast, hf, -⟩ := Validator.ofSchema_error hv
      simp only [← Schema.hasValidator_cutFields h hs] at hleast
      refine ⟨s, k, field, hs, hk, hleast, ?_⟩
      rcases ofFile_of_error hd h hs hv with ⟨d, rfl, hfile⟩ | ⟨hother, hfile⟩
      · have hname : d.field? = some field.id := Validator.checkAfter_defect hf
        have hid : s.ids[k]? = some field.id := by rw [Schema.ids, List.getElem?_map, hk]; rfl
        obtain ⟨j, hj, hplace⟩ := placeOf_eq h hs hid
        refine .inl ⟨_, d, j, hfile, ?_, hname, hj, isGreatest_eq_iff hid hj⟩
        rw [hname, hplace, List.filter_cons_of_pos rfl, errors_warnings]
      · exact .inr ⟨pattern_unreadable h hs (List.mem_of_getElem? hk) hf hother, e, hother, hfile⟩

end Issue

/-! ## Ids that occur again -/

namespace Sample

def fieldDocument (id type : String) : Value := .record [("id", .text id), ("type", .text type)]

def formDocument (fields : List Value) : Value :=
  .record [("form", .text "visit"), ("title", .text "Visit"), ("fields", .list fields)]

/-- Three fields with one id, the second of which is at fault. -/
def threefold : Value := formDocument (List.replicate 3 (fieldDocument "name" "text"))

/-- A choice without options, before an id that is there already. -/
def optionless : Value :=
  formDocument [fieldDocument "name" "text", fieldDocument "colour" "select", fieldDocument "name" "text"]

def fileOf (doc : Value) : FormFile := ⟨⟨"/", ["forms", "visit.yaml"]⟩, .ok doc⟩

theorem threefold_fits : Shape.form.Fits threefold := (Shape.complaints_eq_nil _ [] _).mp (by decide +kernel)

theorem optionless_fits : Shape.form.Fits optionless := (Shape.complaints_eq_nil _ [] _).mp (by decide +kernel)

theorem isLeast_one {doc : Value} {s : Schema} (h : Shape.form.Fits doc) (hs : Schema.ofValue doc = .ok s)
    (hone : (s.cut 1).HasValidator) (htwo : ¬ (s.cut 2).HasValidator) :
    IsLeast {j | ¬ (doc.cutFields (j + 1)).HasValidator} 1 := by
  simp only [Schema.hasValidator_cutFields h hs]
  refine ⟨htwo, fun j hj => Nat.pos_of_ne_zero ?_⟩
  rintro rfl
  exact hj hone

end Sample

namespace Issue

/-- The error of a form is not always at the first field with which the form has no validator. -/
theorem error_at_third_namesake : ¬ ∀ (f : FormFile) (doc : Value) (issues : List Issue) (k : Nat),
    f.document = .ok doc → Shape.form.Fits doc → ¬ doc.HasValidator → ofFile f = .ok issues →
      IsLeast {j | ¬ (doc.cutFields (j + 1)).HasValidator} k →
        ∃ i, (issues.filter fun i => !i.isWarning) = [i] ∧ i.place = s!"fields[{k}]" := by
  intro hall
  have hfits := Sample.threefold_fits
  have hn : ¬ Sample.threefold.HasValidator := by
    rintro ⟨s, hs, v, hv⟩
    cases hs
    cases hv
  have hleast : IsLeast {j | ¬ (Sample.threefold.cutFields (j + 1)).HasValidator} 1 :=
    Sample.isLeast_one hfits rfl ⟨_, rfl⟩ fun ⟨_, hv⟩ => by cases hv
  have hfile := ofFile_of_fits (f := Sample.fileOf Sample.threefold) rfl hfits
  rw [defectIssues_eq rfl] at hfile
  obtain ⟨i, herrors, hplace⟩ := hall _ _ _ 1 rfl hfits hn hfile hleast
  rw [List.filter_append, errors_warnings, List.append_nil, List.filter_singleton] at herrors
  cases herrors
  revert hplace
  decide

theorem defect_at_last_namesake_optionless : Shape.form.Fits Sample.optionless ∧ ¬ Sample.optionless.HasValidator ∧
    ∃ issues message, ofFile (Sample.fileOf Sample.optionless) = .ok issues ∧
      (issues.filter fun i => !i.isWarning) =
        [{ file := (Sample.fileOf Sample.optionless).path, message, place := "fields[1]" }] := by
  have hfits := Sample.optionless_fits
  have hn : ¬ Sample.optionless.HasValidator := by
    rintro ⟨s, hs, v, hv⟩
    cases hs
    cases hv
  have hleast : IsLeast {j | ¬ (Sample.optionless.cutFields (j + 1)).HasValidator} 1 :=
    Sample.isLeast_one hfits rfl ⟨_, rfl⟩ fun ⟨_, hv⟩ => by cases hv
  have hfile : (Sample.fileOf Sample.optionless).document = .ok Sample.optionless := rfl
  obtain ⟨s, k, field, hs, hk, hk', h⟩ := defect_at_last_namesake hfile hfits hn
  cases hs
  cases hk'.unique hleast
  cases hk
  rcases h with ⟨issues, d, j, hissues, herrors, -, -, hj⟩ | ⟨hr, -⟩
  · obtain rfl : j = 1 := hj.mpr (by decide)
    exact ⟨hfits, hn, issues, d.message, hissues, herrors⟩
  · exact absurd (fun _ p hp => by cases hp) hr

end Issue
end Formwork
