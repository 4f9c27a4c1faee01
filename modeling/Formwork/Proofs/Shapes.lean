import Formwork.Proofs.Documents
import Formwork.Shape

/-!
What it is for a value to have a shape: exactly then there are no complaints about it. A form that is read from a
document of the right shape can be a key.
-/

namespace Formwork

theorem Value.eqv_text {v : Value} {s : String} : v.eqv (.text s) = true ↔ v = .text s := by
  cases v with
  | bool | number => simp [eqv, same, asNumber?]
  | _ => simp [eqv, same, isNaN]

namespace Shape

/-- The value has the shape. -/
inductive Fits : Shape → Value → Prop
  | text {empty : Bool} (s : String) (h : empty ∨ s ≠ "") : Fits (.text empty) (.text s)
  | flag (b : Bool) : Fits .flag (.bool b)
  | number (n : Number) : Fits .number (.number n)
  | count (n : Number) (hi : isInteger (.number n)) (hn : n.lt (.int 0) = false) : Fits .count (.number n)
  | oneOf {names : List String} {name : String} (h : name ∈ names) : Fits (.oneOf names) (.text name)
  | list {items : Shape} {vs : List Value} (h : ∀ v ∈ vs, Fits items v) : Fits (.list items) (.list vs)
  | record {required : List String} {entries : List (String × Shape)} {es : Entries}
      (there : ∀ name ∈ required, es.has name) (known : ∀ e ∈ es, ∃ name ∈ entries.map Prod.fst, e.1 = .text name)
      (fit : ∀ e ∈ entries, ∀ v, es.find? (.text e.1) = some v → Fits e.2 v) :
      Fits (.record required entries) (.map es)

/-! ## Complaints -/

theorem missing_eq_nil {required : List String} {es : Entries} :
    missing required es = [] ↔ ∀ name ∈ required, es.has name := by
  simp [missing, List.filter_eq_nil_iff]

theorem unexpectedMessage_eq_nil {names : List String} {es : Entries} :
    unexpectedMessage names es = [] ↔ ∀ e ∈ es, ∃ name ∈ names, e.1 = .text name := by
  have hnone : unexpectedMessage names es = [] ↔ unexpected names es = [] := by
    unfold unexpectedMessage
    split
    · next h => simp [h]
    · next h => simpa using h
  rw [hnone, unexpected, ← List.length_eq_zero_iff, List.length_mergeSort, List.length_eq_zero_iff,
    List.filter_eq_nil_iff]
  simp [Value.eqv_text]

theorem messages_text {empty : Bool} {v : Value} : messages v (.text empty) = [] ↔ (text empty).Fits v := by
  cases v with
  | text s =>
      have hnone : messages (.text s) (.text empty) = [] ↔ empty ∨ s ≠ "" := by
        cases empty <;> simp [messages, isText, isEmptyText]
      refine hnone.trans ⟨.text s, fun h => ?_⟩
      cases h with
      | text _ h => exact h
  | _ => exact ⟨fun h => (List.cons_ne_nil _ _ h).elim, fun h => nomatch h⟩

theorem messages_flag {v : Value} : messages v .flag = [] ↔ flag.Fits v := by
  cases v with
  | bool b => exact ⟨fun _ => .flag b, fun _ => rfl⟩
  | _ => exact ⟨fun h => (List.cons_ne_nil _ _ h).elim, fun h => nomatch h⟩

theorem messages_number {v : Value} : messages v .number = [] ↔ number.Fits v := by
  cases v with
  | number n => exact ⟨fun _ => .number n, fun _ => rfl⟩
  | _ => exact ⟨fun h => (List.cons_ne_nil _ _ h).elim, fun h => nomatch h⟩

theorem messages_count {v : Value} : messages v .count = [] ↔ count.Fits v := by
  cases v with
  | number n =>
      have hnone : messages (.number n) .count = [] ↔ isInteger (.number n) ∧ n.lt (.int 0) = false := by
        cases hi : isInteger (.number n) <;> cases hn : n.lt (.int 0) <;> simp [messages, isNegative, hi, hn]
      refine hnone.trans ⟨fun h => .count n h.1 h.2, fun h => ?_⟩
      cases h with
      | count _ hi hn => exact ⟨hi, hn⟩
  | _ => exact ⟨fun h => (List.cons_ne_nil _ _ h).elim, fun h => nomatch h⟩

theorem messages_oneOf {names : List String} {v : Value} : messages v (.oneOf names) = [] ↔ (oneOf names).Fits v := by
  have hnone : messages v (.oneOf names) = [] ↔ ∃ name ∈ names, v = .text name := by
    simp [messages, Value.eqv_text]
  rw [hnone]
  refine ⟨fun ⟨name, hm, hv⟩ => hv ▸ .oneOf hm, fun h => ?_⟩
  cases h with
  | oneOf hm => exact ⟨_, hm, rfl⟩

mutual

/-- There are no complaints about a value exactly if it has the shape, wherever it stands. -/
theorem complaints_eq_nil (shape : Shape) (way : List Step) (v : Value) :
    complaints way v shape = [] ↔ shape.Fits v := by
  cases shape with
  | text | flag | number | count | oneOf =>
      -- A shape without parts is judged by its messages alone.
      rw [complaints, List.map_eq_nil_iff]
      · first
        | exact messages_text
        | exact messages_flag
        | exact messages_number
        | exact messages_count
        | exact messages_oneOf
      all_goals nofun
  | list items =>
      cases v with
      | list vs =>
          have hone : complaints way (.list vs) (.list items) = [] ↔ ∀ v ∈ vs, items.Fits v := by
            simp only [complaints, messages, listItems, List.map_nil, List.nil_append, List.flatMap_eq_nil_iff]
            refine ⟨fun h v hv => ?_, fun h e he => ?_⟩
            · obtain ⟨i, hi, rfl⟩ := List.mem_iff_getElem.mp hv
              exact (complaints_eq_nil items _ _).mp (h (vs[i], i) (List.mk_mem_zipIdx_iff_getElem?.mpr (by simp [hi])))
            · exact (complaints_eq_nil items _ _).mpr (h e.1 (List.fst_mem_of_mem_zipIdx he))
          refine hone.trans ⟨.list, fun h => ?_⟩
          cases h with
          | list h => exact h
      | _ => exact ⟨fun h => (List.cons_ne_nil _ _ h).elim, fun h => nomatch h⟩
  | record required entries =>
      cases v with
      | map es =>
          rw [complaints, List.append_eq_nil_iff, List.map_eq_nil_iff, List.append_eq_nil_iff, missing_eq_nil,
            unexpectedMessage_eq_nil, entryComplaints_eq_nil entries]
          refine ⟨fun h => .record h.1.1 h.1.2 h.2, fun h => ?_⟩
          cases h with
          | record there known fit => exact ⟨⟨there, known⟩, fit⟩
      | _ => exact ⟨fun h => (List.cons_ne_nil _ _ h).elim, fun h => nomatch h⟩

theorem entryComplaints_eq_nil (entries : List (String × Shape)) (way : List Step) (es : Entries) :
    entryComplaints way es entries = [] ↔ ∀ e ∈ entries, ∀ v, es.find? (.text e.1) = some v → e.2.Fits v := by
  cases entries with
  | nil => simp [entryComplaints]
  | cons e entries =>
      obtain ⟨name, shape⟩ := e
      rw [entryComplaints, List.append_eq_nil_iff, entryComplaints_eq_nil entries, List.forall_mem_cons]
      refine and_congr_left fun _ => ?_
      cases hf : es.find? (.text name) with
      | none => simp
      | some v => simpa using complaints_eq_nil shape _ v

end

theorem complaintsAbout_eq_nil {shape : Shape} {v : Value} : shape.complaintsAbout v = [] ↔ shape.Fits v := by
  rw [complaintsAbout, ← List.length_eq_zero_iff, List.length_mergeSort, List.length_eq_zero_iff, complaints_eq_nil]

/-! ## Keys -/

/-- Values of the shape have no parts. -/
def isSimple : Shape → Bool
  | list _ | record .. => false
  | _ => true

namespace Fits

variable {required : List String} {entries : List (String × Shape)} {es : Entries} {shape : Shape} {v : Value}
  {name : String}

theorem isKey (h : shape.Fits v) (hs : shape.isSimple) : v.isKey := by
  cases h with
  | list | record => cases hs
  | _ => rfl

theorem entry (h : (Shape.record required entries).Fits (.map es)) (hs : entries.lookup name = some shape)
    (hv : es.find? (.text name) = some v) : shape.Fits v := by
  obtain ⟨before, after, rfl, -⟩ := List.lookup_eq_some_iff.mp hs
  cases h with
  | record there known fit => exact fit (name, shape) (by simp) v hv

theorem entry_isKey (h : (Shape.record required entries).Fits (.map es)) (hs : (entries.lookup name).any isSimple) :
    ((es.find? (.text name)).getD .null).isKey := by
  obtain ⟨shape, hs, hsimple⟩ := (Option.any_eq_true _ _).mp hs
  cases hv : es.find? (.text name) with
  | none => rfl
  | some v => exact (h.entry hs hv).isKey hsimple

theorem required_entry (h : (Shape.record required entries).Fits (.map es)) (name : String) (hr : name ∈ required)
    (hs : entries.lookup name = some shape) : ∃ v, es.find? (.text name) = some v ∧ shape.Fits v := by
  have hthere : es.has name := by
    cases h with
    | record there known fit => exact there name hr
  obtain ⟨v, hv⟩ := Option.isSome_iff_exists.mp hthere
  exact ⟨v, hv, h.entry hs hv⟩

/-- A name that the shape does not have is not in the map. -/
theorem find?_unknown (h : (Shape.record required entries).Fits (.map es)) (hn : name ∉ entries.map Prod.fst) :
    es.find? (.text name) = none := by
  cases h with
  | record there known fit =>
      clear there fit
      induction es with
      | nil => rfl
      | cons e es ih =>
          obtain ⟨known, hknown⟩ := List.forall_mem_cons.mp known
          obtain ⟨other, hother, he⟩ := known
          have hne : (e.1.eqv (.text name)) = false := by
            rw [he, Bool.eq_false_iff, ne_eq, Value.eqv_text, Value.text.injEq]
            exact fun heq => hn (heq ▸ hother)
          rw [Entries.find?, hne]
          exact ih hknown

/-- A text that must not be empty counts as true. -/
theorem isTrue (h : (Shape.text false).Fits v) : v.isTrue := by
  cases h with
  | text s hs => simpa [Value.isTrue] using hs

end Fits

end Shape

theorem Value.isKey_orElse {v w : Value} (hv : v.isKey) (hw : w.isKey) : (v.orElse w).isKey := by
  rw [orElse]
  split
  · exact hv
  · exact hw

theorem Constraints.isKey_fitting {type : FieldType} {c : Constraints} (h : c.isKey) : (c.fitting type).isKey := by
  cases c with
  | none => rfl
  | text | numeric =>
      rw [fitting]
      split
      · exact h
      · rfl

theorem Constraints.isKey_of_fits {type : FieldType} {c : Constraints} {v : Value} (hv : Shape.limits.Fits v)
    (h : ofValue type v = .ok c) : c.isKey := by
  cases hv with
  | @record _ _ es there known fit =>
      have hfits : Shape.limits.Fits (.map es) := .record there known fit
      rw [ofValue_map, Except.ok.injEq, given] at h
      rw [← h]
      refine isKey_fitting ?_
      split
      · simp only [isKey, Bool.and_eq_true]
        exact ⟨⟨hfits.entry_isKey rfl, hfits.entry_isKey rfl⟩, hfits.entry_isKey rfl⟩
      · simp only [isKey, Bool.and_eq_true]
        exact ⟨hfits.entry_isKey rfl, hfits.entry_isKey rfl⟩

/-- The limits that a field of the right shape gives. The shape does not have the other name for them, and limits that are
missing read as an empty map. -/
theorem Field.limits_fit {es : Entries} (h : Shape.field.Fits (.map es)) :
    Shape.limits.Fits ((((es.find? (.text "validation")).getD .null).orElse
      ((es.find? (.text "constraints")).getD .null)).orElse (.map [])) := by
  have hempty : Shape.limits.Fits (.map []) := .record (by simp) (by simp) (by simp [Entries.find?])
  have hnone : es.find? (.text "constraints") = none := h.find?_unknown (by simp)
  rw [hnone]
  cases hf : es.find? (.text "validation") with
  | none => exact hempty
  | some w =>
      have hw : Shape.limits.Fits w := h.entry rfl hf
      cases ht : w.isTrue with
      | true => simpa [Value.orElse, ht] using hw
      | false =>
          have hnull : w.orElse .null = .null := if_neg (by simp [ht])
          rw [Option.getD_some, Option.getD_none, hnull]
          exact hempty

theorem Field.isKey_of_fits {f : Field} {v : Value} (hv : Shape.field.Fits v) (h : ofValue v = .ok f) : f.isKey := by
  obtain ⟨es, rfl⟩ := ofValue_isMap h
  have hr := ofValue_map.mp h
  simp only [isKey, Bool.and_eq_true]
  refine ⟨⟨⟨?_, ?_⟩, Constraints.isKey_of_fits (limits_fit hv) hr.constraints⟩, ?_⟩
  · exact hr.label ▸ Value.isKey_orElse (hv.entry_isKey rfl) rfl
  · exact hr.placeholder ▸ hv.entry_isKey rfl
  · exact hr.icon ▸ hv.entry_isKey rfl

namespace Schema

variable {s : Schema} {v : Value}

/-- A form read from a document of the right shape can be a key. -/
theorem isKey_of_fits (hv : Shape.form.Fits v) (h : ofValue v = .ok s) : s.isKey := by
  obtain ⟨es, rfl⟩ := ofValue_isMap h
  have hr := ofValue_map.mp h
  have htitle : s.title.isKey := by
    obtain ⟨w, hw, hfits⟩ := hv.required_entry "title" (by simp) rfl
    rw [hr.title, hw]
    exact hfits.isKey rfl
  have hfields : s.fields.all Field.isKey := by
    obtain ⟨w, hw, hfits⟩ := hv.required_entry "fields" (by simp) rfl
    obtain ⟨vs, hvs, hfields⟩ := hr.fields
    cases hfits with
    | @list _ ws hfits =>
        rw [hw, Option.getD_some, Value.elementsIfTrue_list, Except.ok.injEq] at hvs
        subst hvs
        refine List.all_eq_true.mpr fun f hf => ?_
        obtain ⟨w, hm, hread⟩ := mapM_mem hfields hf
        exact Field.isKey_of_fits (hfits w hm) hread
  simp only [isKey, Bool.and_eq_true]
  exact ⟨⟨⟨htitle, hfields⟩, hr.description ▸ hv.entry_isKey rfl⟩, hr.submitLabel ▸ hv.entry_isKey rfl⟩

/-- Such a form has the name that its document gives. -/
theorem named_of_fits (hv : Shape.form.Fits v) (h : ofValue v = .ok s) : v.require "form" = .ok (.text s.id) := by
  obtain ⟨es, rfl⟩ := ofValue_isMap h
  have hr := ofValue_map.mp h
  obtain ⟨w, hw, hfits⟩ := hv.required_entry "form" (by simp) rfl
  have htrue := hfits.isTrue
  cases hfits with
  | text name _ =>
      have hid : s.id = name := by
        rw [hr.id, hw, Option.getD_some, Value.orElse, if_pos htrue]
        rfl
      rw [Value.require, hw, hid]

end Schema
end Formwork
