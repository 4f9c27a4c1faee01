import Formwork.Proofs.AcceptedData
import Formwork.Proofs.Equality

/-!
Typed data can be submitted again. What a check lets pass is turned into a value that the check lets pass as well and
that it leaves as it is.
-/

namespace Formwork

namespace Value

variable {v : Value} {n : Number}

/-- The integers that the value writes can be turned into floating-point numbers. -/
def Convertible (v : Value) : Prop := ∀ s n, v = .text s → Decimal.readInt? s = some n → Binary64.overflows n = false

theorem finite?_of_number? (h : v.number? = .ok (some n)) (hc : v.Convertible) : finite? n = .ok (some n) := by
  have hf := number?_finite h
  cases n with
  | float x => simp [finite?, show x.isFinite from hf]
  | int i =>
      suffices hover : Binary64.overflows i = false by simp [finite?, hover]
      cases v with
      | number m =>
          cases m with
          | int j =>
              simp only [number?, finite?] at h
              split at h
              · cases h
              · next hj =>
                  obtain rfl : j = i := by simpa using h
                  exact Bool.eq_false_iff.mpr hj
          | float x => simp [number?, finite?] at h
      | text s =>
          refine hc s i rfl ?_
          simp only [number?, numberOfText?, Except.ok.injEq] at h
          split at h
          · next j hj => rw [hj]; simpa using h
          · split at h <;> simp at h
      | _ => cases h

end Value

namespace Check

variable {c : Check} {x y : Value}

/-- The check accepts the value and leaves it as it is. -/
structure Keeps (c : Check) (y : Value) : Prop where
  accepted : c.violation? y = .ok none
  typed : c.coerce y = .ok y
  proper : y.isNaN = false

theorem keeps_null (ht : c.field.type ≠ .checkbox) (hb : x.isBlank) (h : c.violation? x = .ok none) : c.Keeps .null where
  accepted := by
    have hnull : Value.null.isBlank := rfl
    rw [violation?, if_neg ht, if_pos hb] at h
    rw [violation?, if_neg ht, if_pos hnull, h]
  typed := by
    rw [coerce]
    cases hc : c.field.type <;> first | rfl | exact absurd hc ht
  proper := rfl

theorem violation?_text (ht : c.field.type.isTextLike) (hb : x.isBlank = y.isBlank) (hd : x.display = y.display) :
    c.violation? x = c.violation? y := by
  rw [violation?, violation?, hb, hd]
  cases hc : c.field.type <;> first | rfl | simp [hc, FieldType.isTextLike] at ht

theorem keeps_text (ht : c.field.type.isTextLike) (hx : x.isNull = false) (h : c.violation? x = .ok none) :
    c.Keeps (.text x.display) where
  accepted := by
    have hb : (Value.text x.display).isBlank = x.isBlank := by
      cases hx : x.isBlank with
      | false => exact Value.display_notBlank hx
      | true => cases x <;> simp_all [Value.isBlank, Value.display, Value.isNull]
    rw [violation?_text ht hb (y := x) rfl, h]
  typed := by
    rw [coerce]
    cases hc : c.field.type <;> first | rfl | simp [hc, FieldType.isTextLike] at ht
  proper := rfl

theorem keeps_number (ht : c.field.type = .number) (hb : x.isBlank = false) {n : Number}
    (hn : x.number? = .ok (some n)) (hf : Value.finite? n = .ok (some n)) (h : c.violation? x = .ok none) :
    c.Keeps (.number n) where
  accepted := by
    have hx : c.numberViolation x = .ok none := by simpa [violation?, ht, hb] using h
    have hsame : c.numberViolation (.number n) = c.numberViolation x := by
      rw [numberViolation, numberViolation, hn, Value.number?, hf]
    simp [violation?, ht, Value.isBlank, hsame, hx]
  typed := by simp [coerce, ht, Value.isBlank, Value.number?, hf, Except.map, numberOrNull]
  proper := (Value.number?_finite hn).isNaN

theorem keeps_date (ht : c.field.type = .date) (d : Date) : c.Keeps (.date d) where
  accepted := by simp [violation?, ht, Value.isBlank, Value.date?, ruleIf]
  typed := by simp [coerce, ht, Value.isBlank, Value.date?, dateOrNull]
  proper := rfl

theorem keeps_bool (ht : c.field.type = .checkbox) (b : Bool) : c.Keeps (.bool b) where
  accepted := by rw [violation?, if_pos ht]
  typed := by simp [coerce, ht, Value.isChecked, Value.isTrue]
  proper := rfl

/-- What a check lets pass is turned into a value that it keeps. -/
theorem coerce_keeps (h : c.violation? x = .ok none) (hc : c.field.type = .number → x.Convertible) :
    ∃ y, c.coerce x = .ok y ∧ c.Keeps y := by
  cases ht : c.field.type with
  | checkbox => exact ⟨_, by rw [coerce, ht], keeps_bool ht x.isChecked⟩
  | number =>
      cases hb : x.isBlank with
      | true => exact ⟨.null, by simp [coerce, ht, hb], keeps_null (by simp [ht]) hb h⟩
      | false =>
          have hx : c.numberViolation x = .ok none := by simpa [violation?, ht, hb] using h
          obtain ⟨n, hn⟩ := number?_of_numberViolation hx
          refine ⟨.number n, by simp [coerce, ht, hb, hn, Except.map, numberOrNull], ?_⟩
          exact keeps_number ht hb hn (Value.finite?_of_number? hn (hc ht)) h
  | date =>
      cases hb : x.isBlank with
      | true => exact ⟨.null, by simp [coerce, ht, hb], keeps_null (by simp [ht]) hb h⟩
      | false =>
          have hx : ruleIf x.date?.isNone .invalidDate = .ok none := by simpa [violation?, ht, hb] using h
          obtain ⟨d, hd⟩ := Option.isSome_iff_exists.mp (Option.isNone_eq_false_iff.mp (ruleIf_none.mp hx))
          exact ⟨.date d, by simp [coerce, ht, hb, hd, dateOrNull], keeps_date ht d⟩
  | _ =>
      have htext : c.field.type.isTextLike := by rw [ht]; rfl
      cases hn : x.isNull with
      | true => exact ⟨.null, by simp [coerce, ht, hn], keeps_null (by simp [ht]) (by cases x <;> first | rfl | cases hn) h⟩
      | false => exact ⟨.text x.display, by simp [coerce, ht, hn], keeps_text htext hn h⟩

end Check

namespace Validator

variable {s : Schema} {v : Validator} {values : Value} {outcomes : List (String × Outcome)}

/-- A traversal of the checks that finds something for the entry of every field. -/
theorem mapM_entries {α : Type} {f : Check → Value → Except Fault α} {g : Check → α}
    (h : ∀ c ∈ v.checks, values.get c.field.id = .ok (values.entry c.field.id) ∧
      f c (values.entry c.field.id) = .ok (g c)) :
    (v.checks.mapM fun c => do return (c.field.id, ← f c (← values.get c.field.id))) =
      .ok (v.checks.map fun c => (c.field.id, g c)) := by
  refine mapM_ok_of_forall fun c hc => ?_
  obtain ⟨hget, hf⟩ := h c hc
  rw [hget]
  simp [hf, bind, Except.bind, pure, Except.pure]

/-- Data that every check accepts can be submitted again once they have been converted: every field is accepted, and
another conversion leaves the data as they are. -/
theorem accepted_again (hv : ofSchema s = .ok v) (ho : v.validate values = .ok outcomes)
    (hall : outcomes.all (·.2.valid))
    (hc : ∀ f ∈ s.fields, f.type = .number → (values.entry f.id).Convertible) :
    ∃ data, v.coerce values = .ok data ∧
      v.validate (.record data) = .ok (s.ids.map fun id => (id, .ok)) ∧
      v.coerce (.record data) = .ok data ∧ ∀ e ∈ data, e.2.eqv e.2 := by
  have hvalid := violation?_of_all_valid ho hall
  have hids := ofSchema_ids hv
  have hnodup : (v.checks.map fun c => c.field.id).Nodup := hids ▸ ofSchema_nodup hv
  have hfield (c : Check) (hm : c ∈ v.checks) : c.field ∈ s.fields := ofSchema_fields hv ▸ List.mem_map_of_mem hm
  have hkeeps : ∀ c ∈ v.checks, ∃ y, c.coerce (values.entry c.field.id) = .ok y ∧ c.Keeps y := fun c hm =>
    Check.coerce_keeps (hvalid c hm) (hc c.field (hfield c hm))
  choose! typed htyped hkept using hkeeps
  obtain ⟨data, hdata⟩ : ∃ data, data = v.checks.map fun c => (c.field.id, typed c) := ⟨_, rfl⟩
  have hget : ∀ c ∈ v.checks, values.get c.field.id = .ok (values.entry c.field.id) := by
    intro c hm
    obtain ⟨u, -, hu, -⟩ := (validate_ok ho).1 c hm
    exact Value.get_entry hu
  -- under every name the data hold what the check of the field keeps
  have hagain : ∀ c ∈ v.checks, (Value.record data).get c.field.id = .ok ((Value.record data).entry c.field.id) ∧
      (Value.record data).entry c.field.id = typed c := by
    intro c hm
    refine ⟨Value.get_entry (Value.get_record data c.field.id), ?_⟩
    rw [Value.entry_record, hdata, lookup_map typed hnodup hm]
    rfl
  refine ⟨data, ?_, ?_, ?_, ?_⟩
  · rw [hdata]
    exact mapM_entries fun c hm => ⟨hget c hm, htyped c hm⟩
  · rw [← hids, List.map_map]
    refine mapM_entries fun c hm => ⟨(hagain c hm).1, ?_⟩
    rw [(hagain c hm).2, Check.outcome, (hkept c hm).accepted]
    rfl
  · rw [hdata] at hagain ⊢
    refine mapM_entries fun c hm => ⟨(hagain c hm).1, ?_⟩
    rw [(hagain c hm).2, (hkept c hm).typed]
  · intro e he
    rw [hdata] at he
    obtain ⟨c, hm, rfl⟩ := List.mem_map.mp he
    exact Value.eqv_self_iff.mpr (hkept c hm).proper

end Validator

namespace Submission

theorem booking_convertible : ∀ f ∈ booking.fields, f.type = .number → (bookingValues.entry f.id).Convertible := by
  have hnumeral : ∀ s n, bookingValues.entry "guests" = .text s → Decimal.readInt? s = some n →
      Binary64.overflows n = false := by
    intro s n hs hn
    obtain rfl : "4 " = s := Value.text.inj hs
    obtain rfl : 4 = n := Option.some.inj hn
    decide +kernel
  simp only [booking, List.forall_mem_cons, List.not_mem_nil, false_implies, implies_true, and_true, reduceCtorEq,
    forall_true_left, true_and]
  exact hnumeral

/-- A booking whose data are texts, without a day. -/
theorem accepted_again_booking : ∃ data, bookingValidator.coerce bookingValues = .ok data ∧
    bookingValidator.validate (.record data) = .ok (booking.ids.map fun id => (id, .ok)) ∧
    bookingValidator.coerce (.record data) = .ok data ∧ ∀ e ∈ data, e.2.eqv e.2 := by
  have hvalid : bookingValidator.validate bookingValues = .ok (booking.ids.map fun id => (id, .ok)) := rfl
  exact Validator.accepted_again rfl hvalid rfl booking_convertible

end Submission
end Formwork
