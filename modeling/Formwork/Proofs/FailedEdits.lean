import Formwork.Proofs.Faults
import Formwork.Proofs.LiveRuns

/-!
Edits that fail. A form whose limits are numbers has one kind of value that no check can judge, an integer beyond all
floating-point numbers; such an edit leaves its value behind, and every other edit that fails leaves nothing.
-/

namespace Formwork

namespace Value

/-- The limit can be compared with numbers, if there is one. -/
def IsLimit (v : Value) : Prop := v = .null ∨ ∃ n, v.asNumber? = some n

end Value

structure Constraints.Comparable (c : Constraints) : Prop where
  minLength : c.minLength.IsLimit
  maxLength : c.maxLength.IsLimit
  min : c.min.IsLimit
  max : c.max.IsLimit

namespace Check

variable {c : Check} {v : Value} {e : Fault}

theorem exceeds_ok {limit : Value} (hl : limit.IsLimit) (test : Number → Bool) (found : Value → Violation) :
    ∃ r, exceeds limit (fun v => v.bound.map test) found = .ok r := by
  rcases hl with rfl | ⟨n, hn⟩
  · exact ⟨none, rfl⟩
  · unfold exceeds
    split
    · exact ⟨none, rfl⟩
    · exact ⟨_, by simp only [Value.bound, hn]; rfl⟩

theorem firstOf_ok {rules : List (Unit → Except Fault (Option Violation))}
    (h : ∀ rule ∈ rules, ∃ r, rule () = .ok r) : ∃ r, firstOf rules = .ok r := by
  cases hf : firstOf rules with
  | ok r => exact ⟨r, rfl⟩
  | error e =>
      obtain ⟨rule, hm, he⟩ := firstOf_error hf
      obtain ⟨r, hr⟩ := h rule hm
      cases he.symm.trans hr

theorem textViolation_ok (hl : c.field.constraints.Comparable) (s : String) : ∃ r, c.textViolation s = .ok r := by
  refine firstOf_ok fun rule hm => ?_
  simp only [List.mem_cons, List.not_mem_nil, or_false] at hm
  rcases hm with rfl | rfl | rfl | rfl | rfl
  · exact ⟨_, rfl⟩
  · exact ⟨_, rfl⟩
  · exact exceeds_ok hl.minLength (lengthOf s).lt .minLength
  · exact exceeds_ok hl.maxLength (fun b => b.lt (lengthOf s)) .maxLength
  · exact ⟨_, rfl⟩

theorem numberViolation_ok (hl : c.field.constraints.Comparable) {n : Option Number} (hn : v.number? = .ok n) :
    ∃ r, c.numberViolation v = .ok r := by
  rw [numberViolation, hn]
  cases n with
  | none => exact ⟨_, rfl⟩
  | some n =>
      refine firstOf_ok fun rule hm => ?_
      simp only [List.mem_cons, List.not_mem_nil, or_false] at hm
      rcases hm with rfl | rfl
      · exact exceeds_ok hl.min n.lt .minValue
      · exact exceeds_ok hl.max (fun b => b.lt n) .maxValue

/-- A check breaks off on nothing but an integer that is too large for a floating-point number. -/
theorem outcome_error (hl : c.field.constraints.Comparable) (h : c.outcome v = .error e) :
    c.field.type = .number ∧ e = .tooLarge ∧ ∃ n, v = .int n ∧ Binary64.overflows n := by
  have hv : c.violation? v = .error e := by
    rw [outcome] at h
    cases hf : c.violation? v with
    | error e' => simpa [hf, Except.map] using h
    | ok r => simp [hf, Except.map] at h
  rw [violation?] at hv
  split at hv
  · cases hv
  · split at hv
    · cases hv
    · cases ht : c.field.type with
      | number =>
          refine ⟨rfl, ?_⟩
          cases hn : v.number? with
          | error e' =>
              obtain rfl : e' = e := by simpa [ht, numberViolation, hn, bind, Except.bind] using hv
              exact Value.number?_error hn
          | ok n =>
              obtain ⟨r, hr⟩ := numberViolation_ok hl hn
              simp [ht, hr] at hv
      | date =>
          simp [ht, ruleIf] at hv
      | _ =>
          obtain ⟨r, hr⟩ := textViolation_ok hl v.display
          simp [ht, hr] at hv

theorem outcome_tooLarge (ht : c.field.type = .number) {n : Int} (hn : Binary64.overflows n) :
    c.outcome (.int n) = .error .tooLarge := by
  have hnumber : (Value.int n).number? = .error .tooLarge := by
    rw [Value.int, Value.number?, Value.finite?, if_pos hn]
  have hblank : (Value.int n).isBlank = false := rfl
  simp [outcome, violation?, ht, hblank, numberViolation, hnumber, bind, Except.bind, Except.map]

end Check

theorem Validator.validateField_error {v : Validator} (hl : ∀ c ∈ v.checks, c.field.constraints.Comparable)
    {id : String} {c : Check} (hc : v.check? id = some c) {value : Value} {e : Fault}
    (h : v.validateField id value = .error e) :
    (∃ c ∈ v.checks, c.field.id = id ∧ c.field.type = .number) ∧ e = .tooLarge ∧
      ∃ n, value = .int n ∧ Binary64.overflows n := by
  rw [validateField, hc] at h
  have hm : c ∈ v.checks := List.mem_of_find?_eq_some hc
  obtain ⟨ht, he, hn⟩ := Check.outcome_error (hl c hm) h
  exact ⟨⟨c, hm, by simpa using List.find?_some hc, ht⟩, he, hn⟩

theorem Session.edit_of_error {s : Session} {id : String} {a : Slot} {value : Value} {e : Fault} (hc : s.closed = false)
    (hs : s.slot? id = some a) (hv : s.validator.validateField id value = .error e) :
    s.edit id value = ((s.putSlot { a with value }, []), .error e) := by
  simp [edit, hc, slot, hs, hv]

/-- An edit that fails is refused without a trace, or its check breaks off after the value was taken over. -/
theorem Session.edit_error {s : Session} {id : String} {value : Value} {e : Fault}
    (h : (s.edit id value).2 = .error e) :
    (s.edit id value).1 = (s, []) ∧ (s.closed ∨ s.slot? id = none) ∨
      ∃ a, s.slot? id = some a ∧ s.validator.validateField id value = .error e ∧
        (s.edit id value).1 = (s.putSlot { a with value }, []) := by
  cases hc : s.closed with
  | true => exact .inl ⟨by simp [edit, hc], .inl rfl⟩
  | false =>
      cases hs : s.slot? id with
      | none => exact .inl ⟨by simp [edit, hc, slot, hs], .inr rfl⟩
      | some a =>
          cases ho : s.validator.validateField id value with
          | error e' =>
              rw [edit_of_error hc hs ho, Except.error.injEq] at h
              exact .inr ⟨a, rfl, h ▸ rfl, by rw [edit_of_error hc hs ho]⟩
          | ok o => simp [edit, hc, slot, hs, ho] at h

namespace LiveSession

/-- The live session with another value of a field, and all else as it was. -/
def withValue (l : LiveSession) (id : String) (value : Value) : LiveSession :=
  { l with
    session := { l.session with
      slots := l.session.slots.map fun c => if c.field.id = id then { c with value } else c } }

theorem edit_result (l : LiveSession) (id : String) (value : Value) :
    (l.edit id value).2 = (l.session.edit id value).2 := rfl

theorem putSlot_eq_withValue {l : LiveSession} {w : World} (hw : w.Sound) (hs : w.session = l.session) {a : Slot}
    {id : String} (ha : l.session.slot? id = some a) (value : Value) :
    ({ l with session := l.session.putSlot { a with value } } : LiveSession) = l.withValue id value := by
  have hslots : (l.session.putSlot { a with value }).slots =
      l.session.slots.map fun c => if c.field.id = id then { c with value } else c := by
    refine List.map_congr_left fun c hc => ?_
    obtain rfl := Session.slot?_id ha
    by_cases hi : c.field.id = a.field.id
    · have hc' := hw.slot?_of_mem (hs ▸ hc)
      rw [hs, hi, ha, Option.some.injEq] at hc'
      rw [if_pos hi, if_pos hi, hc']
    · rw [if_neg hi, if_neg hi]
  rw [withValue, ← hslots]
  rfl

end LiveSession

/-! ## An edit that fails and leaves its value -/

namespace Sample

def ages : Schema where
  id := "ages"
  title := .text "Ages"
  fields := [{ id := "age", type := .number, label := .text "Age", constraints := .numeric (.int 0) .null }]

def agesSession : Session where
  validator := { schema := ages, checks := ages.fields.map fun field => { field } }
  slots := ages.fields.map fun field => { field }

theorem agesSession_opened : agesSession.Opened := ⟨ages, agesSession.validator, .field, true, [], rfl, rfl⟩

def agesLive : LiveSession where
  session := agesSession
  evaluator := fun _ _ => { pause := .none, answer := .findings [] }
  listeners := [{ name := "main" }]

def tooLarge : Int := Decimal.twoTo 1024

theorem agesLive_reachable : agesLive.Reachable := .opened agesSession_opened ..

theorem ages_comparable : ∀ c ∈ agesLive.session.validator.checks, c.field.constraints.Comparable := by
  intro c hc
  obtain rfl := List.mem_singleton.mp (show c ∈ [({ field := ages.fields.head (by decide) } : Check)] from hc)
  exact ⟨.inl rfl, .inl rfl, .inr ⟨_, rfl⟩, .inl rfl⟩

theorem agesLive_edit {n : Int} (hn : Binary64.overflows n) :
    (agesLive.edit "age" (.int n)).2 = .error .tooLarge := by
  have hv : agesLive.session.validator.validateField "age" (.int n) = .error .tooLarge :=
    Check.outcome_tooLarge (c := { field := ages.fields.head (by decide) }) rfl hn
  rw [LiveSession.edit_result, Session.edit_of_error (s := agesLive.session) rfl rfl hv]

theorem tooLarge_overflows : Binary64.overflows tooLarge := by
  rw [Binary64.overflows, decide_eq_true_eq, tooLarge, Int.natAbs_natCast]
  exact Nat.sub_le _ _

end Sample

namespace LiveSession

end LiveSession
end Formwork
