import Formwork.Proofs.Batches

/-!
What a field and a form say that were read from a document, entry by entry. Only a map is read.
-/

namespace Formwork

namespace Value

variable {v u : Value} {name : String}

theorem get_map (es : Entries) (name : String) : (map es).get name = .ok (es.get name) := rfl

theorem get_isMap (h : v.get name = .ok u) : ∃ es : Entries, v = map es := by
  cases v <;> first | exact ⟨_, rfl⟩ | cases h

theorem require_isMap (h : v.require name = .ok u) : ∃ es : Entries, v = map es := by
  cases v <;> first | exact ⟨_, rfl⟩ | cases h

theorem elementsIfTrue_list (vs : List Value) : (list vs).elementsIfTrue = .ok vs := by
  cases vs <;> rfl

end Value

namespace Constraints

/-- What is left of the limits for a type: nothing if none is given that means something for it. -/
def fitting (type : FieldType) : Constraints → Constraints
  | none => none
  | text minLength maxLength pattern =>
      if type.isTextLike && !(minLength.isNull && maxLength.isNull && pattern.isNull) then
        text minLength maxLength pattern
      else none
  | numeric min max => if type = .number && !(min.isNull && max.isNull) then numeric min max else none

/-- The limits that a document gives for a type. -/
def given (type : FieldType) (limit : String → Value) : Constraints :=
  fitting type (if type.isTextLike then text (limit "minLength") (limit "maxLength") (limit "pattern")
    else numeric (limit "min") (limit "max"))

theorem ofValue_map (type : FieldType) (es : Entries) : ofValue type (.map es) = .ok (given type es.get) := by
  unfold ofValue given
  simp only [Value.get_map, bind, Except.bind, pure, Except.pure]
  cases ht : type.isTextLike with
  | true =>
      simp only [if_true, fitting, ht, Bool.true_and]
      generalize es.get "minLength" = a, es.get "maxLength" = b, es.get "pattern" = p
      cases a with
      | null =>
          cases b with
          | null => cases p <;> rfl
          | _ => rfl
      | _ => rfl
  | false =>
      simp only [Bool.false_eq_true, if_false, fitting]
      generalize es.get "min" = a, es.get "max" = b
      by_cases hn : type = .number
      · simp only [hn, if_true, decide_true, Bool.true_and]
        cases a with
        | null => cases b <;> rfl
        | _ => rfl
      · simp [hn]

end Constraints

namespace Field

variable {f : Field} {v : Value}

/-- The field says what the entries of a document say. -/
structure ReadFrom (f : Field) (said : String → Option Value) : Prop where
  id : ∃ u, said "id" = some u ∧ f.id = u.display
  type : FieldType.ofValue? ((said "type").getD (.text "text")) = some f.type
  label : f.label = ((said "label").getD .null).orElse (.text (displayName f.id))
  placeholder : f.placeholder = (said "placeholder").getD .null
  required : f.required = ((said "required").getD .null).isTrue
  constraints : Constraints.ofValue f.type
    ((((said "validation").getD .null).orElse ((said "constraints").getD .null)).orElse (.map [])) =
      .ok f.constraints
  options : ∃ vs, ((said "options").getD .null).elementsIfTrue = .ok vs ∧ vs.mapM Choice.ofValue = .ok f.options
  icon : f.icon = (said "icon").getD .null

theorem ofValue_map {es : Entries} : ofValue (.map es) = .ok f ↔ f.ReadFrom fun name => es.find? (.text name) := by
  have hget (name : String) : es.get name = (es.find? (.text name)).getD .null := rfl
  simp only [ofValue, Value.mentions, Entries.has, Value.require, Value.getD, Value.get_map, hget]
  cases hid : es.find? (.text "id") with
  | none =>
      refine ⟨fun h => ?_, fun h => ?_⟩
      · simp [bind, Except.bind, throw, throwThe, MonadExceptOf.throw] at h
      · obtain ⟨u, hu, -⟩ := h.id
        cases hid.symm.trans hu
  | some u =>
      cases ht : FieldType.ofValue? ((es.find? (.text "type")).getD (.text "text")) with
      | none =>
          refine ⟨fun h => ?_, fun h => ?_⟩
          · simp [bind, Except.bind, throw, throwThe, MonadExceptOf.throw, ht] at h
          · cases ht.symm.trans h.type
      | some t =>
          simp only [ht, bind_ok, Option.isSome_some, if_true, Except.ok.injEq, exists_eq_left', pure, Except.pure]
          constructor
          · rintro ⟨vs, hvs, options, hoptions, limits, hlimits, rfl⟩
            exact ⟨⟨u, hid, rfl⟩, ht, rfl, rfl, rfl, hlimits, ⟨vs, hvs, hoptions⟩, rfl⟩
          · rintro ⟨⟨w, hw, hid'⟩, htype, hlabel, hplaceholder, hrequired, hlimits, ⟨vs, hvs, hoptions⟩, hicon⟩
            cases hid.symm.trans hw
            cases ht.symm.trans htype
            refine ⟨vs, hvs, _, hoptions, _, hlimits, ?_⟩
            rw [← hid', ← hlabel, ← hplaceholder, ← hrequired, ← hicon]

theorem ofValue_isMap (h : ofValue v = .ok f) : ∃ es : Entries, v = .map es := by
  simp only [ofValue, bind_ok] at h
  obtain ⟨isField, -, h⟩ := h
  cases isField with
  | false => simp [bind, Except.bind, throw, throwThe, MonadExceptOf.throw] at h
  | true =>
      simp only [if_true, bind_ok] at h
      obtain ⟨u, hu, -⟩ := h
      exact Value.require_isMap hu

theorem ofValue_record {entries : List (String × Value)} :
    ofValue (.record entries) = .ok f ↔ f.ReadFrom fun name => entries.lookup name := by
  rw [Value.record, ofValue_map]
  simp only [Entries.find?_record]

end Field

namespace Schema

variable {s : Schema} {v : Value}

/-- The form says what the entries of a document say. -/
structure ReadFrom (s : Schema) (said : String → Option Value) : Prop where
  named : (((said "form").getD .null).orElse ((said "id").getD .null)).isTrue
  id : s.id = (((said "form").getD .null).orElse ((said "id").getD .null)).display
  title : s.title = (said "title").getD (.text s.id)
  description : s.description = (said "description").getD .null
  submitLabel : s.submitLabel = (said "submitLabel").getD .null
  advisory : ∃ enabled, (((said "advisoryValidation").getD .null).orElse (.map [])).getD "enabled" (.bool true) =
    .ok enabled ∧ s.advisoryEnabled = enabled.isTrue
  fields : ∃ vs, ((said "fields").getD .null).elementsIfTrue = .ok vs ∧ vs.mapM Field.ofValue = .ok s.fields

theorem ofValue_map {es : Entries} : ofValue (.map es) = .ok s ↔ s.ReadFrom fun name => es.find? (.text name) := by
  have hget (name : String) : es.get name = (es.find? (.text name)).getD .null := rfl
  have htitle (default : Value) :
      (Value.map es).getD "title" default = .ok ((es.find? (.text "title")).getD default) := rfl
  simp only [ofValue, Value.get_map, htitle, hget]
  cases hn : (((es.find? (.text "form")).getD .null).orElse ((es.find? (.text "id")).getD .null)).isTrue with
  | false =>
      refine ⟨fun h => ?_, fun h => ?_⟩
      · simp [bind, Except.bind, throw, throwThe, MonadExceptOf.throw, hn] at h
      · cases hn.symm.trans h.named
  | true =>
      simp only [hn, bind_ok, if_true, Except.ok.injEq, exists_eq_left', pure, Except.pure]
      constructor
      · rintro ⟨enabled, henabled, vs, hvs, fields, hfields, rfl⟩
        exact ⟨hn, rfl, rfl, rfl, rfl, ⟨enabled, henabled, rfl⟩, ⟨vs, hvs, hfields⟩⟩
      · rintro ⟨-, hid, htitle, hdescription, hsubmit, ⟨enabled, henabled, hadvisory⟩, ⟨vs, hvs, hfields⟩⟩
        refine ⟨enabled, henabled, vs, hvs, _, hfields, ?_⟩
        rw [← hid, ← htitle, ← hdescription, ← hsubmit, ← hadvisory]

theorem ofValue_isMap (h : ofValue v = .ok s) : ∃ es : Entries, v = .map es := by
  simp only [ofValue, bind_ok] at h
  obtain ⟨form, hform, -⟩ := h
  exact Value.get_isMap hform

theorem ofValue_record {entries : List (String × Value)} :
    ofValue (.record entries) = .ok s ↔ s.ReadFrom fun name => entries.lookup name := by
  rw [Value.record, ofValue_map]
  simp only [Entries.find?_record]

end Schema
end Formwork
