import Formwork.Proofs.DefectPlaces
import Formwork.Proofs.Exports
import Formwork.Proofs.KeyedDocuments

/-!
Limits without effect. A limit of a field is warned about exactly if the form that is read from the document is the same
without it.
-/

namespace Formwork

/-! ## Which limits are read -/

namespace Constraints

variable {type : FieldType}

/-- What is read of the limits of a field depends on those that mean something for its type, and on each of them. -/
theorem given_eq_iff {limit other : String → Value} :
    given type limit = given type other ↔ ∀ name ∈ Issue.effective type, limit name = other name := by
  unfold Issue.effective
  split
  · next ht =>
      simp only [List.forall_mem_cons, List.not_mem_nil, false_implies, implies_true, and_true]
      constructor
      · intro h
        obtain ⟨hmin, hmax, hpattern⟩ := fitting_text ht (.text (limit "minLength") (limit "maxLength") (limit "pattern"))
        obtain ⟨hmin₂, hmax₂, hpattern₂⟩ :=
          fitting_text ht (.text (other "minLength") (other "maxLength") (other "pattern"))
        rw [given, given, if_pos ht, if_pos ht] at h
        rw [h] at hmin hmax hpattern
        exact ⟨hmin.symm.trans hmin₂, hmax.symm.trans hmax₂, hpattern.symm.trans hpattern₂⟩
      · rintro ⟨hmin, hmax, hpattern⟩
        rw [given, given, if_pos ht, if_pos ht, hmin, hmax, hpattern]
  · next ht =>
      split
      · next hn =>
          subst hn
          simp only [List.forall_mem_cons, List.not_mem_nil, false_implies, implies_true, and_true]
          constructor
          · intro h
            obtain ⟨hmin, hmax⟩ := fitting_numeric (.numeric (limit "min") (limit "max"))
            obtain ⟨hmin₂, hmax₂⟩ := fitting_numeric (.numeric (other "min") (other "max"))
            rw [given, given, if_neg ht, if_neg ht] at h
            rw [h] at hmin hmax
            exact ⟨hmin.symm.trans hmin₂, hmax.symm.trans hmax₂⟩
          · rintro ⟨hmin, hmax⟩
            rw [given, given, if_neg ht, if_neg ht, hmin, hmax]
      · next hn => simp [given, ht, fitting, hn]

end Constraints

namespace Shape.Fits

variable {shape : Shape} {required : List String} {entries : List (String × Shape)} {es : Entries} {name : String} {v : Value}

theorem ne_null (h : shape.Fits v) : v ≠ .null := by
  rintro rfl
  cases h

theorem entry_ne_null (h : (Shape.record required entries).Fits (.map es)) (hv : es.find? (.text name) = some v) :
    v ≠ .null := by
  have hknown : name ∈ entries.map Prod.fst := by
    by_contra hn
    cases hv.symm.trans (h.find?_unknown hn)
  obtain ⟨e, he, rfl⟩ := List.mem_map.mp hknown
  cases h with
  | record there known fit => exact (fit e he v hv).ne_null

end Shape.Fits

def Shape.limitNames : List String := ["minLength", "maxLength", "pattern", "min", "max"]

namespace Entries

variable {limits : Entries}

theorem key_of_fits (h : Shape.limits.Fits (.map limits)) {key : Value} (hk : key ∈ limits.map Prod.fst) :
    ∃ name ∈ Shape.limitNames, key = .text name := by
  obtain ⟨e, he, rfl⟩ := List.mem_map.mp hk
  cases h with
  | record there known fit => exact known e he

theorem find?_of_mem {name : String} (hk : .text name ∈ limits.map Prod.fst) :
    ∃ v, limits.find? (.text name) = some v := by
  induction limits with
  | nil => cases hk
  | cons e es ih =>
      rw [find?]
      by_cases he : e.1.eqv (.text name)
      · exact ⟨e.2, if_pos he⟩
      · rw [if_neg he]
        refine ih ((List.mem_cons.mp hk).resolve_left fun heq => he ?_)
        rw [← heq, Value.eqv_text]

/-- What is read of the limits stays the same without one of them exactly if that one means nothing for the type. -/
theorem given_without {type : FieldType} (h : Shape.limits.Fits (.map limits)) {name : String}
    (hk : .text name ∈ limits.map Prod.fst) :
    Constraints.given type (limits.without (.text name)).get = .given type limits.get ↔ name ∉ Issue.effective type := by
  have hget (other : String) : (limits.without (.text name)).get other = if other = name then .null else limits.get other := by
    rw [get, find?_without]
    split <;> rfl
  obtain ⟨v, hv⟩ := find?_of_mem hk
  have hne : limits.get name ≠ .null := by
    rw [get, hv]
    exact h.entry_ne_null hv
  rw [Constraints.given_eq_iff]
  simp only [hget]
  constructor
  · intro hall hm
    exact hne (by simpa using (hall name hm).symm)
  · intro hm other hother
    rw [if_neg (ne_of_mem_of_not_mem hother hm)]

end Entries

/-! ## Warnings -/

theorem append_isPrefix {c : Char} {l m rest : List Char} (hl : c ∉ l) (hm : c ∉ m) :
    l ++ [c] <+: m ++ c :: rest ↔ l = m := by
  constructor
  · rintro ⟨more, h⟩
    have hstop (before after : List Char) (hb : c ∉ before) : (before ++ c :: after).takeWhile (· ≠ c) = before := by
      rw [List.takeWhile_append_of_pos fun d hd => decide_eq_true (ne_of_mem_of_not_mem hd hb),
        List.takeWhile_cons_of_neg (by simp), List.append_nil]
    rw [List.append_assoc, List.singleton_append] at h
    rw [← hstop l more hl, h, hstop m rest hm]
  · rintro rfl
    exact ⟨rest, by simp⟩

namespace Issue

/-- The warning is about a limit of the field at a place. -/
def WarnsOf (w : Issue) (i : Nat) (limit : String) : Prop :=
  w.isWarning ∧ w.place = s!"fields[{i}]/validation" ∧ s!"'{limit}'".toList <+: w.message.toList

instance (w : Issue) (i : Nat) (limit : String) : Decidable (w.WarnsOf i limit) :=
  inferInstanceAs (Decidable (_ ∧ _ ∧ _))

theorem place_inj {i j : Nat} : s!"fields[{i}]/validation" = s!"fields[{j}]/validation" ↔ i = j := by
  refine ⟨fun h => ?_, fun h => h ▸ rfl⟩
  have hrepr : i.repr = j.repr := by simpa [toString] using h
  -- A numeral is read back as the number.
  have hread := congrArg (fun text => Nat.ofDigitChars 10 text.toList 0) hrepr
  simpa [Nat.repr_eq_ofList_toDigits, Nat.ofDigitChars_toDigits] using hread

theorem no_quote {name : String} (h : name ∈ Shape.limitNames) : '\'' ∉ name.toList :=
  (by decide : ∀ name ∈ Shape.limitNames, '\'' ∉ name.toList) name h

theorem warningText_isPrefix {limit name : String} (hl : limit ∈ Shape.limitNames) (hn : name ∈ Shape.limitNames)
    (t : FieldType) (id : String) : s!"'{limit}'".toList <+: (warningText name t id).toList ↔ limit = name := by
  have hquoted : s!"'{limit}'".toList = '\'' :: (limit.toList ++ ['\'']) := by
    simp [toString]
  have htext : ∃ rest, (warningText name t id).toList = '\'' :: (name.toList ++ '\'' :: rest) := by
    refine ⟨s!" has no effect on {t.name} field '{id}'".toList, ?_⟩
    simp [warningText, toString]
  obtain ⟨rest, htext⟩ := htext
  rw [hquoted, htext, List.cons_prefix_cons, append_isPrefix (no_quote hl) (no_quote hn), String.toList_inj]
  simp

/-- The warning about a limit of a field. -/
def ofLimit (file : Path) (index : Nat) (field : Value) (t : FieldType) (name : String) : Issue where
  file
  message := warningText name t (entry field "id").display
  place := s!"fields[{index}]/validation"
  isWarning := true

theorem warningsAt_eq {file : Path} {index : Nat} {field : Value} {t : FieldType}
    (ht : FieldType.ofValue? (entry field "type") = some t) :
    warningsAt file index field = (withoutEffect t field).map (ofLimit file index field t) := by
  rw [warningsAt, ht]
  rfl

theorem ofLimit_warnsOf {limit name : String} (hl : limit ∈ Shape.limitNames) (hn : name ∈ Shape.limitNames) {file : Path}
    {i j : Nat} {field : Value} {t : FieldType} : (ofLimit file j field t name).WarnsOf i limit ↔ i = j ∧ limit = name := by
  have hplace : s!"fields[{j}]/validation" = s!"fields[{i}]/validation" ↔ i = j := place_inj.trans eq_comm
  rw [WarnsOf, ofLimit, warningText_isPrefix hl hn, hplace]
  exact ⟨fun h => h.2, fun h => ⟨rfl, h⟩⟩

theorem countP_warningsAt {file : Path} {field : Value} {t : FieldType}
    (ht : FieldType.ofValue? (entry field "type") = some t) (hn : ∀ name ∈ limitNames field, name ∈ Shape.limitNames)
    (i j : Nat) {limit : String} (hl : limit ∈ Shape.limitNames) :
    (warningsAt file j field).countP (fun w => w.WarnsOf i limit) =
      if i = j ∧ limit ∉ effective t then (limitNames field).count limit else 0 := by
  have hcount : (warningsAt file j field).countP (fun w => w.WarnsOf i limit) =
      (limitNames field).countP fun name => decide (i = j ∧ limit = name ∧ name ∉ effective t) := by
    rw [warningsAt_eq ht, List.countP_map, withoutEffect, (List.mergeSort_perm _ _).countP_eq, List.countP_filter]
    refine List.countP_congr fun name hm => ?_
    simp [ofLimit_warnsOf hl (hn name hm), and_assoc]
  rw [hcount]
  split
  · next h =>
      obtain ⟨rfl, he⟩ := h
      refine List.countP_congr fun name _ => ?_
      rw [decide_eq_true_eq, beq_iff_eq]
      constructor
      · exact fun hboth => hboth.2.1.symm
      · rintro rfl
        exact ⟨rfl, rfl, he⟩
  · next h =>
      refine List.countP_eq_zero.mpr fun name _ => ?_
      rw [decide_eq_true_eq]
      rintro ⟨hi, rfl, he⟩
      exact h ⟨hi, he⟩

theorem limits_fit {field : Value} {limits : Entries} (h : Shape.field.Fits field)
    (hl : entry field "validation" = .map limits) : Shape.limits.Fits (.map limits) := by
  obtain ⟨es, rfl⟩ := Value.isMap_of_fits h
  exact h.entry rfl (Field.find?_validation hl)

theorem limitNames_of_fits {field : Value} (h : Shape.field.Fits field) :
    ∀ name ∈ limitNames field, name ∈ Shape.limitNames := by
  intro name hm
  rw [limitNames] at hm
  split at hm
  · next limits hl =>
      obtain ⟨e, he, rfl⟩ := List.mem_map.mp hm
      obtain ⟨name, hname, hkey⟩ := Entries.key_of_fits (limits_fit h hl) (List.mem_map_of_mem he)
      rw [hkey]
      exact hname
  · cases hm

/-- What is counted over all places of a list is counted at one of them, if there is nothing to count elsewhere. -/
theorem countP_zipIdx {α β : Type} {p : β → Bool} (part : Nat → α → List β) {l : List α} {i : Nat} {a : α}
    (hi : l[i]? = some a) (h : ∀ j b, l[j]? = some b → j ≠ i → (part j b).countP p = 0) :
    (l.zipIdx.flatMap fun e => part e.2 e.1).countP p = (part i a).countP p := by
  obtain ⟨hlt, rfl⟩ := List.getElem?_eq_some_iff.mp hi
  have hsplit : l.zipIdx = l.zipIdx.take i ++ (l[i], i) :: l.zipIdx.drop (i + 1) := by
    have hcons : l.zipIdx.drop i = (l[i], i) :: l.zipIdx.drop (i + 1) := by
      rw [List.drop_eq_getElem_cons (by simpa using hlt), List.getElem_zipIdx, Nat.zero_add]
    rw [← hcons, List.take_append_drop]
  have hzero (es : List (α × Nat)) (hes : ∀ e ∈ es, l[e.2]? = some e.1 ∧ e.2 ≠ i) :
      (es.flatMap fun e => part e.2 e.1).countP p = 0 := by
    refine List.countP_eq_zero.mpr fun b hb => ?_
    obtain ⟨e, he, hb⟩ := List.mem_flatMap.mp hb
    exact List.countP_eq_zero.mp (h e.2 e.1 (hes e he).1 (hes e he).2) b hb
  have hbefore : ∀ e ∈ l.zipIdx.take i, l[e.2]? = some e.1 ∧ e.2 ≠ i := by
    intro e he
    obtain ⟨j, hj, rfl⟩ := List.mem_take_iff_getElem.mp he
    rw [List.getElem_zipIdx, Nat.zero_add]
    exact ⟨List.getElem?_eq_getElem _, by omega⟩
  have hafter : ∀ e ∈ l.zipIdx.drop (i + 1), l[e.2]? = some e.1 ∧ e.2 ≠ i := by
    intro e he
    obtain ⟨j, hj, rfl⟩ := List.mem_drop_iff_getElem.mp he
    rw [List.getElem_zipIdx, Nat.zero_add]
    exact ⟨List.getElem?_eq_getElem _, by omega⟩
  rw [hsplit, List.flatMap_append, List.flatMap_cons, List.countP_append, List.countP_append, hzero _ hbefore,
    hzero _ hafter, Nat.zero_add, Nat.add_zero]
theorem countP_warnings {file : Path} {doc : Value} {s : Schema} (h : Shape.form.Fits doc) (hs : Schema.ofValue doc = .ok s)
    {i : Nat} {field : Value} {f : Field} (hfield : (fieldsOf doc)[i]? = some field) (hf : s.fields[i]? = some f)
    {limit : String} (hl : limit ∈ Shape.limitNames) :
    (warnings file doc).countP (fun w => w.WarnsOf i limit) =
      if limit ∉ effective f.type then (limitNames field).count limit else 0 := by
  obtain ⟨hfits, hread⟩ := Schema.fieldsOf_of_fits h hs
  have hat (j : Nat) (v : Value) (hv : (fieldsOf doc)[j]? = some v) : ∃ g, s.fields[j]? = some g ∧
      (warningsAt file j v).countP (fun w => w.WarnsOf i limit) =
        if i = j ∧ limit ∉ effective g.type then (limitNames v).count limit else 0 := by
    have hfit := hfits v (List.mem_of_getElem? hv)
    obtain ⟨g, hg, hgread⟩ := forall₂_getElem? hread hv
    exact ⟨g, hg, countP_warningsAt (Field.entry_type hfit hgread) (limitNames_of_fits hfit) i j hl⟩
  rw [warnings, countP_zipIdx (warningsAt file) hfield]
  · obtain ⟨g, hg, hcount⟩ := hat i field hfield
    cases hf.symm.trans hg
    rw [hcount]
    simp
  · intro j v hv hne
    obtain ⟨g, -, hcount⟩ := hat j v hv
    rw [hcount, if_neg fun hboth => hne hboth.1.symm]

/-! ## Warnings and the limits that are read -/

theorem unchanged_without_iff {doc : Value} {s : Schema} (h : Shape.form.Fits doc) (hs : Schema.ofValue doc = .ok s)
    {i : Nat} {field : Value} {f : Field} (hfield : (fieldsOf doc)[i]? = some field) (hf : s.fields[i]? = some f)
    {limits : Entries} (hl : entry field "validation" = .map limits) {name : String}
    (hk : .text name ∈ limits.map Prod.fst) :
    Schema.ofValue (doc.withoutLimit i (.text name)) = Schema.ofValue doc ↔ name ∉ effective f.type := by
  obtain ⟨hfit, hread⟩ := Schema.field_at_of_fits h hs hfield hf
  have hconstraints := Field.constraints_of_limits hfit hread hl
  have hi := (List.getElem?_eq_some_iff.mp hf).1
  rw [Schema.ofValue_withoutLimit h hs hfield hf hl, hs, Except.ok.injEq, ← Entries.given_without (limits_fit hfit hl) hk,
    ← hconstraints]
  constructor
  · intro heq
    have hset := congrArg (fun s' : Schema => s'.fields[i]?) heq
    rw [List.getElem?_set_self hi, hf, Option.some.injEq] at hset
    exact congrArg Field.constraints hset
  · intro heq
    have hself : s.fields.set i f = s.fields := by
      obtain ⟨-, rfl⟩ := List.getElem?_eq_some_iff.mp hf
      exact List.set_getElem_self hi
    rw [heq]
    exact congrArg (fun fields => { s with fields }) hself

theorem entry_keyed {v : Value} (h : v.Keyed) (name : String) : (entry v name).Keyed := by
  unfold entry
  split
  · exact h.get name
  · exact .null

theorem fieldsOf_keyed {doc : Value} (h : doc.Keyed) : ∀ v ∈ fieldsOf doc, v.Keyed := by
  intro v hv
  unfold fieldsOf at hv
  split at hv
  · split at hv
    · next vs hvs =>
        have hlist := h.get "fields"
        rw [hvs] at hlist
        exact Value.Keyed.list_iff.mp hlist v hv
    · cases hv
  · cases hv

theorem count_limitNames {field : Value} (h : Shape.field.Fits field) (hk : field.Keyed) {limits : Entries}
    (hl : entry field "validation" = .map limits) {name : String} (hm : .text name ∈ limits.map Prod.fst) :
    (limitNames field).count name = 1 := by
  have hlimits := entry_keyed hk "validation"
  rw [hl] at hlimits
  have hkeys : ∀ k ∈ limits.map Prod.fst, ∃ s, k = .text s := by
    intro k hk
    obtain ⟨s, -, hs⟩ := Entries.key_of_fits (limits_fit h hl) hk
    exact ⟨s, hs⟩
  have hnames : limitNames field = (limits.map Prod.fst).map Value.display := by
    rw [limitNames, hl, List.map_map]
    rfl
  rw [hnames]
  refine List.count_eq_one_of_mem (((Value.Keyed.map_iff.mp hlimits).1.nodup hkeys).map_on fun a ha b hb heq => ?_) (List.mem_map_of_mem hm)
  obtain ⟨s, rfl⟩ := hkeys a ha
  obtain ⟨t, rfl⟩ := hkeys b hb
  exact congrArg Value.text heq

/-- Every limit without which the form stays the same is warned about once, and no other limit is. -/
structure WarnsOfIdle (doc : Value) (issues : List Issue) : Prop where
  each : ∀ (i : Nat) (field : Value) (limits : Entries) (key : Value), (fieldsOf doc)[i]? = some field →
    entry field "validation" = .map limits → key ∈ limits.map Prod.fst →
      (Schema.ofValue (doc.withoutLimit i key) = Schema.ofValue doc →
        issues.countP (fun w => w.WarnsOf i key.display) = 1) ∧
      (Schema.ofValue (doc.withoutLimit i key) ≠ Schema.ofValue doc →
        issues.countP (fun w => w.WarnsOf i key.display) = 0)
  only : ∀ w ∈ issues, w.isWarning → ∃ (i : Nat) (field : Value) (limits : Entries) (key : Value),
    (fieldsOf doc)[i]? = some field ∧ entry field "validation" = .map limits ∧ key ∈ limits.map Prod.fst ∧
      w.WarnsOf i key.display

theorem warnsOfIdle_warnings {file : Path} {doc : Value} {s : Schema} (h : Shape.form.Fits doc) (hk : doc.Keyed)
    (hs : Schema.ofValue doc = .ok s) : WarnsOfIdle doc (warnings file doc) := by
  obtain ⟨hfits, hread⟩ := Schema.fieldsOf_of_fits h hs
  constructor
  · intro i field limits key hfield hl hkey
    have hm := List.mem_of_getElem? hfield
    have hfit := hfits field hm
    obtain ⟨name, hname, rfl⟩ := Entries.key_of_fits (limits_fit hfit hl) hkey
    obtain ⟨f, hf, -⟩ := forall₂_getElem? hread hfield
    rw [Ne, unchanged_without_iff h hs hfield hf hl hkey, Value.display, countP_warnings h hs hfield hf hname,
      count_limitNames hfit (fieldsOf_keyed hk field hm) hl hkey]
    exact ⟨fun he => if_pos he, fun he => if_neg he⟩
  · intro w hw _
    obtain ⟨⟨field, i⟩, hfield, hw⟩ := List.mem_flatMap.mp hw
    rw [List.mem_zipIdx_iff_getElem?] at hfield
    have hfit := hfits field (List.mem_of_getElem? hfield)
    obtain ⟨f, -, hread⟩ := forall₂_getElem? hread hfield
    rw [warningsAt_eq (Field.entry_type hfit hread)] at hw
    obtain ⟨name, hname, rfl⟩ := List.mem_map.mp hw
    rw [withoutEffect, List.mem_mergeSort, List.mem_filter] at hname
    have hknown := limitNames_of_fits hfit name hname.1
    have hgiven := hname.1
    rw [limitNames] at hgiven
    split at hgiven
    · next limits hl =>
        obtain ⟨e, he, rfl⟩ := List.mem_map.mp hgiven
        exact ⟨i, field, limits, e.1, hfield, hl, List.mem_map_of_mem he, (ofLimit_warnsOf hknown hknown).mpr ⟨rfl, rfl⟩⟩
    · cases hgiven

theorem WarnsOfIdle.append {doc : Value} {errors issues : List Issue} (he : ∀ i ∈ errors, i.isWarning = false)
    (h : WarnsOfIdle doc issues) : WarnsOfIdle doc (errors ++ issues) := by
  have hcount (i : Nat) (limit : String) : (errors ++ issues).countP (fun w => w.WarnsOf i limit) =
      issues.countP fun w => w.WarnsOf i limit := by
    rw [List.countP_append, List.countP_eq_zero.mpr, Nat.zero_add]
    intro w hw
    simp [WarnsOf, he w hw]
  constructor
  · intro i field limits key hfield hl hkey
    rw [hcount]
    exact h.each i field limits key hfield hl hkey
  · intro w hw hwarns
    rcases List.mem_append.mp hw with hw | hw
    · rw [he w hw] at hwarns
      cases hwarns
    · exact h.only w hw hwarns

/-- The warnings about a document of the right shape are about the limits that the form does not depend on, whether the form
has a defect or not. There are none if the pattern of a field breaks the search for a defect off. -/
theorem warned_iff_dropped {files : Files} {path : Path} {doc : Value}
    (hd : (FormFile.read files path).document = .ok doc) (h : Shape.form.Fits doc) :
    (∃ issues, ofFile (.read files path) = .ok issues ∧ WarnsOfIdle doc issues) ∨
      ∃ s field e, Schema.ofValue doc = .ok s ∧ field ∈ s.fields ∧ ¬ field.PatternReadable ∧
        (∀ d, e ≠ .defect d) ∧ ofFile (.read files path) = .error e := by
  obtain ⟨s, hs⟩ := Schema.ofValue_of_fits h
  have hwarns : WarnsOfIdle doc (warnings path doc) := warnsOfIdle_warnings h (FormFile.read_keyed hd) hs
  cases hv : Validator.ofSchema s with
  | ok v =>
      have hfile := ofFile_of_fits hd h
      rw [defectIssues_eq hs, hv] at hfile
      exact .inl ⟨_, hfile, hwarns.append (by simp)⟩
  | error e =>
      rcases ofFile_of_error hd h hs hv with ⟨d, rfl, hfile⟩ | ⟨hother, hfile⟩
      · exact .inl ⟨_, hfile, hwarns.append (List.forall_mem_singleton.mpr rfl)⟩
      · obtain ⟨k, field, checks, hk, -, hf, -⟩ := Validator.ofSchema_error hv
        have hm : field ∈ s.fields := List.mem_of_getElem? hk
        exact .inr ⟨s, field, e, hs, hm, pattern_unreadable h hs hm hf hother, hother, hfile⟩

end Issue

/-! ## A text with two limits -/

namespace Sample

def visitPath : Path := ⟨"/", ["visit.yaml"]⟩

/-- One form with a field of text. -/
def limitedFiles (first second : String) : Files where
  here := ⟨"/", []⟩
  texts := [(visitPath, "form: v\ntitle: V\nfields:\n- id: a\n  type: text\n  validation:\n    " ++ first ++ "\n    " ++
    second ++ "\n")]

def shortFiles : Files := limitedFiles "min: 1" "minLength: 2"

/-- The pattern repeats a letter more often than a pattern can. -/
def longRunFiles : Files := limitedFiles "pattern: a\x7b99999999999\x7d" "min: 1"

/-- The document of a file has the right shape, and a test says yes to the issues found in it. -/
theorem read_fits (files : Files) (path : Path) (test : Except Fault (List Issue) → Bool)
    (h : (FormFile.read files path).document.toOption.any fun doc =>
      (Shape.form.complaintsAbout doc).isEmpty && test (Issue.ofDocument path doc)) :
    ∃ doc, (FormFile.read files path).document = .ok doc ∧ Shape.form.Fits doc ∧
      test (Issue.ofFile (.read files path)) := by
  cases hd : (FormFile.read files path).document with
  | error e =>
      rw [hd] at h
      cases h
  | ok doc =>
      rw [hd, Except.toOption, Option.any_some, Bool.and_eq_true, List.isEmpty_iff] at h
      have hfits := Shape.complaintsAbout_eq_nil.mp h.1
      refine ⟨doc, rfl, hfits, ?_⟩
      obtain ⟨es, rfl⟩ := Value.isMap_of_fits hfits
      rw [Issue.ofFile, hd]
      exact h.2

end Sample

namespace Issue

/-- The limits of a field are not always warned about: the search for a defect may break off. -/
theorem limits_unwarned : ¬ ∀ (files : Files) (path : Path) (doc : Value), (FormFile.read files path).document = .ok doc →
    Shape.form.Fits doc → ∃ issues, ofFile (.read files path) = .ok issues ∧ WarnsOfIdle doc issues := by
  intro hall
  obtain ⟨doc, hd, h, hbroken⟩ := Sample.read_fits Sample.longRunFiles Sample.visitPath
    (fun r => r.toOption.isNone) (by decide +kernel)
  obtain ⟨issues, hissues, -⟩ := hall _ _ doc hd h
  rw [hissues] at hbroken
  cases hbroken

theorem warned_iff_dropped_short : ∃ doc issues, (FormFile.read Sample.shortFiles Sample.visitPath).document = .ok doc ∧
    Shape.form.Fits doc ∧ ofFile (.read Sample.shortFiles Sample.visitPath) = .ok issues ∧ WarnsOfIdle doc issues ∧
      issues.map (·.message) = ["'min' has no effect on text field 'a'"] := by
  obtain ⟨doc, hd, h, hmessages⟩ := Sample.read_fits Sample.shortFiles Sample.visitPath
    (fun r => r.toOption.any fun issues => issues.map (·.message) = ["'min' has no effect on text field 'a'"])
    (by decide +kernel)
  rcases warned_iff_dropped hd h with ⟨issues, hissues, hwarns⟩ | ⟨-, -, e, -, -, -, -, hbroken⟩
  · rw [hissues] at hmessages
    exact ⟨doc, issues, hd, h, hissues, hwarns, of_decide_eq_true hmessages⟩
  · rw [hbroken] at hmessages
    cases hmessages

end Issue
end Formwork
