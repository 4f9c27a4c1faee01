import Formwork.Proofs.Displays
import Formwork.Proofs.Documents

/-!
Writing a form and reading it again. Limits that mean nothing for the type of their field are lost, and a label that
counts as false is made up again; a form that was read has neither, and comes back as it is.
-/

namespace Formwork

namespace Value

variable {v w : Value}

theorem isNull_iff : v.isNull ↔ v = .null := by
  cases v <;> simp [isNull]

@[simp] theorem orElse_orElse : (v.orElse w).orElse w = v.orElse w := by
  unfold orElse
  split <;> simp_all

/-- The text of a value that counts as true is not empty. -/
theorem display_ne_empty (h : v.isTrue) : v.display ≠ "" := by
  intro he
  cases hb : v.isBlank with
  | false =>
      have hd := display_notBlank hb
      rw [he] at hd
      cases hd
  | true =>
      -- A text of white space counts as true too.
      cases v with
      | text s => simp [isTrue, show s = "" from he] at h
      | null => cases h
      | _ => cases hb

end Value

theorem Choice.ofValue_toValue (c : Choice) : ofValue c.toValue = .ok c := rfl

theorem FieldType.ofValue?_name (t : FieldType) : ofValue? (.text t.name) = some t := by
  cases t <;> rfl

/-- An entry that is left out if it is nothing reads as nothing. -/
theorem Entries.get_given (given : List (String × Value)) (hn : (given.map (·.1)).Nodup) (name : String) :
    get ((given.filter fun e => !e.2.isNull).map fun e => (.text e.1, e.2)) name = (given.lookup name).getD .null := by
  rw [get, find?_record]
  induction given with
  | nil => rfl
  | cons e given ih =>
      obtain ⟨hx, hn⟩ := List.nodup_cons.mp hn
      rw [List.lookup_cons]
      cases hnull : e.2.isNull with
      | true =>
          rw [List.filter_cons_of_neg (by simp [hnull]), ih hn]
          by_cases h : name = e.1
          -- The name that is left out is given once, so it is not found further on.
          · have hnone : given.lookup name = none := by
              rw [List.lookup_eq_none_iff]
              intro p hp
              rw [h, bne_iff_ne]
              exact fun he => hx (List.mem_map.mpr ⟨p, hp, he.symm⟩)
            simp [h ▸ hnone, h, Value.isNull_iff.mp hnull]
          · simp [beq_eq_false_iff_ne.mpr h]
      | false =>
          rw [List.filter_cons_of_pos (by simp [hnull]), List.lookup_cons]
          split
          · rfl
          · exact ih hn

namespace Constraints

variable {type : FieldType} {c : Constraints}

theorem fitting_fitting : (c.fitting type).fitting type = c.fitting type := by
  cases c with
  | none => rfl
  | text | numeric =>
      rw [fitting]
      split
      · next h => rw [fitting, if_pos h]
      · rfl

/-- Limits that were read fit the type they were read for. -/
theorem fitting_of_ofValue {v : Value} (h : ofValue type v = .ok c) : c.fitting type = c := by
  cases v with
  | map es =>
      rw [ofValue_map, Except.ok.injEq] at h
      rw [← h, given, fitting_fitting]
  | _ =>
      unfold ofValue at h
      split at h
      · cases h
      · split at h
        · cases h
        · cases h
          rfl

/-- Of the limits that are written, those that fit are read again. -/
theorem ofValue_entries (type : FieldType) (c : Constraints) :
    ofValue type (.map c.entries) = .ok (c.fitting type) := by
  rw [ofValue_map, Except.ok.injEq, given]
  cases c with
  | none => cases type <;> rfl
  | text minLength maxLength pattern =>
      have limit := Entries.get_given [("minLength", minLength), ("maxLength", maxLength), ("pattern", pattern)]
        (by simp)
      simp only [entries, limit, List.lookup_cons]
      cases ht : type.isTextLike with
      | true => simp
      | false => simp [fitting, ht, Value.isNull]
  | numeric min max =>
      have limit := Entries.get_given [("min", min), ("max", max)] (by simp)
      simp only [entries, limit, List.lookup_cons]
      cases ht : type.isTextLike with
      | false => simp
      | true =>
          have hn : type ≠ .number := fun h => by simp [h, FieldType.isTextLike] at ht
          simp [fitting, Value.isNull, hn]

end Constraints

namespace Field

variable {f : Field} {v : Value}

/-- What is left of a field when it is written and read. -/
def exported (f : Field) : Field :=
  { f with label := f.label.orElse (.text (displayName f.id)), constraints := f.constraints.fitting f.type }

/-- A field that was read loses nothing. -/
theorem exported_of_ofValue (h : ofValue v = .ok f) : f.exported = f := by
  obtain ⟨es, rfl⟩ := ofValue_isMap h
  have hr := ofValue_map.mp h
  rw [exported, Constraints.fitting_of_ofValue hr.constraints, hr.label, Value.orElse_orElse, ← hr.label]

theorem lookup_unless (c : Prop) [Decidable c] (name key : String) (v : Value) :
    (if c then [] else [(name, v)]).lookup key = if key = name ∧ ¬c then some v else none := by
  by_cases hc : c <;> by_cases hk : key = name <;> simp [hc, hk]

theorem lookup_entryIfGiven (name key : String) (v : Value) :
    (entryIfGiven name v).lookup key = if key = name ∧ ¬v.isNull then some v else none :=
  lookup_unless ..

theorem ofValue_toValue (f : Field) : ofValue f.toValue = .ok f.exported := by
  -- What is read for the entries that may be left out, and for the options.
  have given (v : Value) : (if v.isNull = false then some v else none).getD .null = v := by
    cases v <;> rfl
  have limits (es : Entries) :
      (((if es = [] then none else some (Value.map es)).getD .null).orElse .null).orElse (.map []) = .map es := by
    cases es <;> rfl
  have options (vs : List Value) :
      ((if vs = [] then none else some (Value.list vs)).getD .null).elementsIfTrue = .ok vs := by
    cases vs <;> rfl
  have choices : (f.options.map Choice.toValue).mapM Choice.ofValue = .ok f.options :=
    mapM_ok_iff.mpr (List.forall₂_map_left_iff.mpr (List.forall₂_same.mpr fun c _ => c.ofValue_toValue))
  refine ofValue_record.mpr ⟨⟨_, rfl, rfl⟩, FieldType.ofValue?_name f.type, rfl, ?placeholder, rfl, ?constraints,
    ⟨f.options.map Choice.toValue, ?options, choices⟩, ?icon⟩
  all_goals simp only [List.lookup_append, List.lookup_cons, lookup_entryIfGiven, lookup_unless]
  case placeholder => simpa [exported] using (given f.placeholder).symm
  case constraints =>
    refine Eq.trans (congrArg _ ?_) (Constraints.ofValue_entries f.type f.constraints)
    simpa using limits f.constraints.entries
  case options => simpa using options (f.options.map Choice.toValue)
  case icon => simpa [exported] using (given f.icon).symm

end Field

namespace Schema

variable {s : Schema} {v : Value}

/-- What is left of a form when it is written and read. -/
def exported (s : Schema) : Schema := { s with fields := s.fields.map Field.exported }

/-- A form that was read loses nothing. -/
theorem exported_of_ofValue (h : ofValue v = .ok s) : s.exported = s := by
  obtain ⟨es, rfl⟩ := ofValue_isMap h
  obtain ⟨vs, -, hfields⟩ := (ofValue_map.mp h).fields
  have hsame : s.fields.map Field.exported = s.fields := by
    refine (List.map_congr_left fun f hf => ?_).trans (List.map_id' _)
    obtain ⟨w, -, hw⟩ := mapM_mem hfields hf
    exact Field.exported_of_ofValue hw
  rw [exported, hsame]

/-- A form that was read has a name: what names it counts as true. -/
theorem id_of_ofValue (h : ofValue v = .ok s) : s.id ≠ "" := by
  obtain ⟨es, rfl⟩ := ofValue_isMap h
  have hr := ofValue_map.mp h
  exact hr.id ▸ Value.display_ne_empty hr.named

theorem ofValue_toValue (h : s.id ≠ "") : ofValue s.toValue = .ok s.exported := by
  have named : (Value.text s.id).isTrue := by simpa [Value.isTrue] using h
  have fields : (s.fields.map Field.toValue).mapM Field.ofValue = .ok (s.fields.map Field.exported) := by
    rw [mapM_ok_iff, List.forall₂_map_left_iff, List.forall₂_map_right_iff, List.forall₂_same]
    exact fun f _ => f.ofValue_toValue
  exact ofValue_record.mpr ⟨named, rfl, rfl, rfl, rfl, ⟨_, rfl, rfl⟩, ⟨_, Value.elementsIfTrue_list _, fields⟩⟩

/-- A form that was read from a document comes back as it is when it is written and read again. -/
theorem round_trip (h : ofValue v = .ok s) : ofValue s.toValue = .ok s := by
  rw [ofValue_toValue (id_of_ofValue h), exported_of_ofValue h]

namespace Sample

/-- A document in which what is given counts as false or is of another type than expected. -/
def faintDocument : Value :=
  .record [
    ("form", .bool true),
    ("title", .null),
    ("submitLabel", .text ""),
    ("advisoryValidation", .record [("enabled", .int 0)]),
    ("fields", .list [
      .record [("id", .text "age"), ("type", .text "number"), ("label", .list [.number (.float .nan)]),
        ("validation", .record [("min", .int 0), ("max", .text "ten")])],
      .record [("id", .null), ("icon", .text ""), ("label", .text ""), ("required", .text "no"),
        ("validation", .int 0), ("constraints", .record [("minLength", .int 0), ("pattern", .text "")])],
      .record [("id", .text "size"), ("type", .text "radio"), ("label", .bool false), ("placeholder", .bool false),
        ("options", .list [.record [("value", .bool false)], .record [("value", .text ""), ("label", .null)]])]])]

def faint : Schema where
  id := "True"
  title := .null
  submitLabel := .text ""
  advisoryEnabled := false
  fields := [
    { id := "age", type := .number, label := .list [.number (.float .nan)],
      constraints := .numeric (.int 0) (.text "ten") },
    { id := "None", type := .text, label := .text "None", icon := .text "", required := true,
      constraints := .text (.int 0) .null (.text "") },
    { id := "size", type := .radio, label := .text "Size", placeholder := .bool false,
      options := [⟨"False", "False"⟩, ⟨"", "None"⟩] }]

end Sample

theorem faint_round_trip : ofValue Sample.faintDocument = .ok Sample.faint ∧
    ofValue Sample.faint.toValue = .ok Sample.faint :=
  have hread : ofValue Sample.faintDocument = .ok Sample.faint := rfl
  ⟨hread, round_trip hread⟩

end Schema
end Formwork
