import Formwork.Proofs.Batches
import Formwork.Proofs.Equality

/-!
Forms that are equal have validators that tell the same values apart. What they say can differ: equal numbers need not
be written alike, and a message writes the label and the limit of its field.
-/

namespace Formwork

namespace Number

variable {m n : Number}

theorem extended?_of_eqv (h : m.eqv n) : m.extended? = n.extended? := by
  unfold eqv at h
  cases hm : m.extended? <;> cases hn : n.extended? <;> simp_all

theorem lt_congr_left (h : m.eqv n) (a : Number) : m.lt a = n.lt a := by
  rw [lt, lt, extended?_of_eqv h]

theorem lt_congr_right (h : m.eqv n) (a : Number) : a.lt m = a.lt n := by
  rw [lt, lt, extended?_of_eqv h]

end Number

namespace Value

variable {v w : Value}

theorem isNull_of_eqv (h : v.eqv w) : v.isNull = w.isNull := by
  rw [eqv, Bool.and_eq_true] at h
  cases v <;> cases w <;> simp_all [same, asNumber?, isNull]

/-- Equal values are equal numbers, or none of them is a number. -/
theorem asNumber?_of_eqv (h : v.eqv w) :
    (v.asNumber? = none ∧ w.asNumber? = none) ∨
      ∃ m n, v.asNumber? = some m ∧ w.asNumber? = some n ∧ m.eqv n := by
  rw [eqv, Bool.and_eq_true, Bool.not_eq_true'] at h
  obtain ⟨hs, hn⟩ := h
  cases v with
  | bool b =>
      obtain ⟨n, hw, he⟩ := (Option.any_eq_true _ _).mp hs
      exact .inr ⟨_, n, rfl, hw, by simpa [sameNumber, Number.isNaN] using he⟩
  | number m =>
      obtain ⟨n, hw, he⟩ := (Option.any_eq_true _ _).mp hs
      have hm : m.isNaN = false := hn
      exact .inr ⟨m, n, rfl, hw, by simpa [sameNumber, hm] using he⟩
  | _ => cases w <;> first | exact .inl ⟨rfl, rfl⟩ | cases hs

/-- A limit and an equal one have the same numbers on either side. -/
theorem bound_of_eqv (h : v.eqv w) {test : Number → Bool} (ht : ∀ m n, m.eqv n → test m = test n) :
    v.bound.map test = w.bound.map test := by
  rcases asNumber?_of_eqv h with ⟨hv, hw⟩ | ⟨m, n, hv, hw, he⟩
  · simp only [bound, hv, hw]
  · simp only [bound, hv, hw, Except.map, ht m n he]

end Value

namespace Field

variable {f g : Field}

/-- Fields that are equal. -/
abbrev Eqv (f g : Field) : Prop := f.same g Value.eqv

theorem Eqv.id_eq (h : f.Eqv g) : f.id = g.id := by
  simp only [Eqv, same, Bool.and_eq_true, decide_eq_true_eq] at h
  exact h.1.1.1.1.1.1.1

theorem Eqv.type_eq (h : f.Eqv g) : f.type = g.type := by
  simp only [Eqv, same, Bool.and_eq_true, decide_eq_true_eq] at h
  exact h.1.1.1.1.1.1.2

theorem Eqv.label (h : f.Eqv g) : f.label.eqv g.label := by
  simp only [Eqv, same, Bool.and_eq_true] at h
  exact h.1.1.1.1.1.2

theorem Eqv.required_eq (h : f.Eqv g) : f.required = g.required := by
  simp only [Eqv, same, Bool.and_eq_true, decide_eq_true_eq] at h
  exact h.1.1.1.2

theorem Eqv.options_eq (h : f.Eqv g) : f.options = g.options := by
  simp only [Eqv, same, Bool.and_eq_true, decide_eq_true_eq] at h
  exact h.1.2

theorem Eqv.constraints (h : f.Eqv g) : f.constraints.same g.constraints Value.eqv := by
  simp only [Eqv, same, Bool.and_eq_true] at h
  exact h.1.1.2

end Field

/-- Each limit is equal to the one of the other field. -/
structure Constraints.Eqv (c d : Constraints) : Prop where
  minLength : c.minLength.eqv d.minLength
  maxLength : c.maxLength.eqv d.maxLength
  pattern : c.pattern.eqv d.pattern
  min : c.min.eqv d.min
  max : c.max.eqv d.max

theorem Constraints.eqv_of_same {c d : Constraints} (h : c.same d Value.eqv) : c.Eqv d := by
  have hnull : Value.eqv .null .null := rfl
  cases c <;> cases d <;> simp only [same, Bool.and_eq_true, Bool.false_eq_true] at h
  · exact ⟨hnull, hnull, hnull, hnull, hnull⟩
  · exact ⟨h.1.1, h.1.2, h.2, hnull, hnull⟩
  · exact ⟨hnull, hnull, hnull, h.1, h.2⟩

/-! ## Checks -/

namespace Check

variable {c d : Check} {α : Type} {view : Violation → α}

/-- Checks of equal fields. -/
structure Alike (c d : Check) : Prop where
  field : c.field.Eqv d.field
  pattern : c.pattern = d.pattern

/-- What is seen of a violation does not depend on how the limits of a field are written. -/
structure Blind (view : Violation → α) (f g : Field) : Prop where
  minLength : view (.minLength f.constraints.minLength) = view (.minLength g.constraints.minLength)
  maxLength : view (.maxLength f.constraints.maxLength) = view (.maxLength g.constraints.maxLength)
  min : view (.minValue f.constraints.min) = view (.minValue g.constraints.min)
  max : view (.maxValue f.constraints.max) = view (.maxValue g.constraints.max)

/-- What is seen of the first violation. -/
def seen (view : Violation → α) (found : Except Fault (Option Violation)) : Except Fault (Option α) :=
  found.map fun v => v.map view

theorem exceeds_seen {a b : Value} (h : a.eqv b) {test : Number → Bool} (ht : ∀ m n, m.eqv n → test m = test n)
    {found : Value → Violation} (hv : view (found a) = view (found b)) :
    seen view (exceeds a (fun v => v.bound.map test) found) =
      seen view (exceeds b (fun v => v.bound.map test) found) := by
  rw [exceeds, exceeds, Value.isNull_of_eqv h, Value.bound_of_eqv h ht]
  cases b.isNull with
  | true => rfl
  | false =>
      cases b.bound.map test with
      | error e => rfl
      | ok violated => cases violated <;> simp [seen, Except.map, hv]

theorem firstOf_seen {rules rules' : List (Unit → Except Fault (Option Violation))}
    (h : List.Forall₂ (fun r r' => seen view (r ()) = seen view (r' ())) rules rules') :
    seen view (firstOf rules) = seen view (firstOf rules') := by
  induction h with
  | nil => rfl
  | @cons r r' _ _ hr _ ih =>
      rw [firstOf, firstOf]
      cases hf : r () with
      | error e =>
          cases hf' : r' () <;> simp_all [seen, Except.map, bind, Except.bind]
      | ok found =>
          cases hf' : r' () with
          | error e => simp [hf, hf', seen, Except.map] at hr
          | ok found' =>
              cases found <;> cases found' <;>
                simp_all [seen, Except.map, bind, Except.bind, pure, Except.pure]

theorem textViolation_seen (h : c.Alike d) (hb : Blind view c.field d.field) (text : String) :
    seen view (c.textViolation text) = seen view (d.textViolation text) := by
  have hlimits := Constraints.eqv_of_same h.field.constraints
  have hoption : isOption c.field text = isOption d.field text := by rw [isOption, isOption, h.field.options_eq]
  refine firstOf_seen (.cons ?_ (.cons ?_ (.cons ?_ (.cons ?_ (.cons ?_ .nil)))))
  · rw [h.field.type_eq]
  · rw [h.field.type_eq, hoption]
  · exact exceeds_seen hlimits.minLength (fun m n he => Number.lt_congr_right he _) hb.minLength
  · exact exceeds_seen hlimits.maxLength (fun m n he => Number.lt_congr_left he _) hb.maxLength
  · rw [h.pattern]

theorem numberViolation_seen (h : c.Alike d) (hb : Blind view c.field d.field) (x : Value) :
    seen view (c.numberViolation x) = seen view (d.numberViolation x) := by
  have hlimits := Constraints.eqv_of_same h.field.constraints
  rw [numberViolation, numberViolation]
  cases x.number? with
  | error e => rfl
  | ok found =>
      cases found with
      | none => rfl
      | some n =>
          refine firstOf_seen (.cons ?_ (.cons ?_ .nil))
          · exact exceeds_seen hlimits.min (fun m n he => Number.lt_congr_right he _) hb.min
          · exact exceeds_seen hlimits.max (fun m n he => Number.lt_congr_left he _) hb.max

/-- Checks of equal fields find the same, as far as it can be seen. -/
theorem violation?_seen (view : Violation → α) (h : c.Alike d) (hb : Blind view c.field d.field) (x : Value) :
    seen view (c.violation? x) = seen view (d.violation? x) := by
  rw [violation?, violation?, h.field.type_eq, h.field.required_eq]
  split
  · rfl
  · split
    · rfl
    · split
      · exact numberViolation_seen h hb x
      · rfl
      · exact textViolation_seen h hb x.display

theorem coerce_alike (h : c.Alike d) (x : Value) : c.coerce x = d.coerce x := by
  rw [coerce, coerce, h.field.type_eq]

end Check

namespace Outcome

/-- The verdict without its message. -/
def verdict (o : Outcome) : Bool × Option String := (o.valid, o.code)

theorem verdict_ofViolation (label : String) (found : Option Violation) :
    (ofViolation label found).verdict = (found.isNone, found.map (·.code)) := by
  cases found <;> rfl

end Outcome

namespace Field

/-- The labels are written alike, and so are the limits that messages name. -/
structure WrittenAs (f g : Field) : Prop where
  label : f.label.display = g.label.display
  minLength : f.constraints.minLength.display = g.constraints.minLength.display
  maxLength : f.constraints.maxLength.display = g.constraints.maxLength.display
  min : f.constraints.min.boundText = g.constraints.min.boundText
  max : f.constraints.max.boundText = g.constraints.max.boundText

end Field

namespace Check

variable {c d : Check}

theorem verdict_alike (h : c.Alike d) (x : Value) :
    (c.outcome x).map Outcome.verdict = (d.outcome x).map Outcome.verdict := by
  have hseen := violation?_seen Violation.code h ⟨rfl, rfl, rfl, rfl⟩ x
  rw [outcome, outcome]
  cases hc : c.violation? x <;> cases hd : d.violation? x <;> rw [hc, hd] at hseen
  · simpa [seen, Except.map] using hseen
  · simp [seen, Except.map] at hseen
  · simp [seen, Except.map] at hseen
  · next found found' =>
      have hseen : found.map Violation.code = found'.map Violation.code := Except.ok.inj hseen
      have hnone : found.isNone = found'.isNone := by simpa using congrArg Option.isNone hseen
      simp [Except.map, Outcome.verdict_ofViolation, hseen, hnone]

theorem outcome_alike (h : c.Alike d) (hw : c.field.WrittenAs d.field) (x : Value) : c.outcome x = d.outcome x := by
  have hseen := violation?_seen (fun v => Outcome.ofViolation d.field.label.display (some v)) h
    ⟨by simp [Outcome.ofViolation, Violation.message, Violation.code, hw.minLength],
      by simp [Outcome.ofViolation, Violation.message, Violation.code, hw.maxLength],
      by simp [Outcome.ofViolation, Violation.message, Violation.code, hw.min],
      by simp [Outcome.ofViolation, Violation.message, Violation.code, hw.max]⟩ x
  rw [outcome, outcome, hw.label]
  cases hc : c.violation? x <;> cases hd : d.violation? x <;> rw [hc, hd] at hseen
  · simpa [seen, Except.map] using hseen
  · simp [seen, Except.map] at hseen
  · simp [seen, Except.map] at hseen
  · next found found' =>
      have hseen := Except.ok.inj hseen
      cases found <;> cases found' <;> simp_all [Except.map]

/-- Both checks are of a field of one id, give the same verdicts and convert values alike. -/
structure JudgesAs (c d : Check) : Prop where
  id : c.field.id = d.field.id
  verdict : ∀ x, (c.outcome x).map Outcome.verdict = (d.outcome x).map Outcome.verdict
  coerce : ∀ x, c.coerce x = d.coerce x

theorem Alike.judgesAs (h : c.Alike d) : c.JudgesAs d := ⟨h.field.id_eq, verdict_alike h, coerce_alike h⟩

end Check

/-! ## Validators -/

namespace Check

variable {f g : Field}

theorem readPattern_of_eqv (h : f.Eqv g) : readPattern f = readPattern g := by
  have hpattern := (Constraints.eqv_of_same h.constraints).pattern
  rw [Value.eqv, Bool.and_eq_true] at hpattern
  rw [readPattern, readPattern, h.id_eq]
  cases hf : f.constraints.pattern <;> cases hg : g.constraints.pattern <;>
    simp_all [Value.same, Value.asNumber?]

theorem ofField_of_eqv (h : f.Eqv g) :
    (∃ e, ofField f = .error e ∧ ofField g = .error e) ∨
      ∃ c d, ofField f = .ok c ∧ ofField g = .ok d ∧ c.Alike d := by
  rw [ofField, ofField, h.type_eq, readPattern_of_eqv h]
  split
  · cases readPattern g with
    | error e => exact .inl ⟨e, rfl, rfl⟩
    | ok pattern => exact .inr ⟨_, _, rfl, rfl, h, rfl⟩
  · exact .inr ⟨_, _, rfl, rfl, h, rfl⟩

end Check

namespace Validator

theorem checkAfter_of_eqv (form : String) {before before' : List Check} {f g : Field} (h : f.Eqv g)
    (hb : List.Forall₂ Check.Alike before before') :
    (∃ e, checkAfter form before f = .error e ∧ checkAfter form before' g = .error e) ∨
      ∃ c d, checkAfter form before f = .ok c ∧ checkAfter form before' g = .ok d ∧ c.Alike d := by
  have hany : (before.any fun c => c.field.id = f.id) = before'.any fun c => c.field.id = g.id := by
    rw [h.id_eq]
    induction hb with
    | nil => rfl
    | cons hc _ ih => rw [List.any_cons, List.any_cons, ih, hc.field.id_eq]
  rw [checkAfter, checkAfter, hany, h.id_eq, h.type_eq, h.options_eq]
  split
  · exact .inl ⟨_, rfl, rfl⟩
  · split
    · exact .inl ⟨_, rfl, rfl⟩
    · exact Check.ofField_of_eqv h

/-- Equal fields have checks alike, or the same defect. -/
theorem checksFrom_of_eqv (form : String) {fs gs : List Field} (h : List.Forall₂ Field.Eqv fs gs)
    {before before' : List Check} (hb : List.Forall₂ Check.Alike before before') :
    (∃ e, checksFrom form before fs = .error e ∧ checksFrom form before' gs = .error e) ∨
      ∃ cs ds, checksFrom form before fs = .ok cs ∧ checksFrom form before' gs = .ok ds ∧
        List.Forall₂ Check.Alike cs ds := by
  induction h generalizing before before' with
  | nil => exact .inr ⟨before, before', rfl, rfl, hb⟩
  | cons hf _ ih =>
      rw [checksFrom, checksFrom]
      rcases checkAfter_of_eqv form hf hb with ⟨e, hc, hd⟩ | ⟨c, d, hc, hd, hcd⟩
      · exact .inl ⟨e, by rw [hc]; rfl, by rw [hd]; rfl⟩
      · rw [hc, hd]
        exact ih (List.rel_append hb (.cons hcd .nil))

end Validator

/-- A traversal seen through what is made of each result. -/
theorem map_mapM {α β γ : Type} {f : α → Except Fault β} (g : β → γ) (l : List α) :
    (l.mapM f).map (List.map g) = l.mapM fun a => (f a).map g := by
  induction l with
  | nil => rfl
  | cons a l ih =>
      rw [List.mapM_cons, List.mapM_cons, ← ih]
      cases f a with
      | error e => rfl
      | ok b => cases l.mapM f <;> rfl

namespace Schema

variable {s t : Schema}

theorem fields_of_eqv (h : s.eqv t) : List.Forall₂ Field.Eqv s.fields t.fields := by
  have hsame (fs gs : List Field) (h : sameFields Value.eqv fs gs) : List.Forall₂ Field.Eqv fs gs := by
    induction fs generalizing gs with
    | nil => cases gs <;> first | exact .nil | cases h
    | cons f fs ih =>
        cases gs with
        | nil => cases h
        | cons g gs =>
            rw [sameFields, Bool.and_eq_true] at h
            exact .cons h.1 (ih gs h.2)
  simp only [eqv, sameBy, Bool.and_eq_true] at h
  exact hsame _ _ h.1.1.1.2

theorem id_of_eqv (h : s.eqv t) : s.id = t.id := by
  simp only [eqv, sameBy, Bool.and_eq_true, decide_eq_true_eq] at h
  exact h.1.1.1.1.1

/-- The fields are written alike, one by one. -/
def WrittenAs (s t : Schema) : Prop := List.Forall₂ Field.WrittenAs s.fields t.fields

end Schema

namespace Validator

variable {v w : Validator}

/-- The outcomes without their messages. -/
def verdicts (outcomes : List (String × Outcome)) : List (String × Bool × Option String) :=
  outcomes.map fun o => (o.1, o.2.verdict)

/-- Both validators have the same fields in order, and judge and convert values alike. -/
structure Alike (v w : Validator) : Prop where
  ids : v.checks.map (fun c => c.field.id) = w.checks.map fun c => c.field.id
  verdicts : ∀ values, (v.validate values).map verdicts = (w.validate values).map verdicts
  failing : ∀ values, v.failingFields values = w.failingFields values
  coerced : ∀ values, v.coerce values = w.coerce values

theorem failing_verdicts (outcomes : List (String × Outcome)) :
    failing outcomes = ((verdicts outcomes).filter fun o => !o.2.1).map (·.1) := by
  rw [failing, verdicts, List.filter_map, List.map_map]
  rfl

/-- Validators whose checks judge alike, one by one. -/
theorem alike_of_judges (h : List.Forall₂ Check.JudgesAs v.checks w.checks) : v.Alike w := by
  have hverdicts (values : Value) : (v.validate values).map verdicts = (w.validate values).map verdicts := by
    have hone : List.Forall₂ (fun c d : Check =>
        (do return (c.field.id, ← c.outcome (← values.get c.field.id)) : Except Fault (String × Outcome)).map
          (fun o => (o.1, o.2.verdict)) =
        (do return (d.field.id, ← d.outcome (← values.get d.field.id)) : Except Fault (String × Outcome)).map
          fun o => (o.1, o.2.verdict)) v.checks w.checks := by
      refine h.imp fun c d hcd => ?_
      rw [hcd.id]
      cases values.get d.field.id with
      | error e => rfl
      | ok x =>
          have hx := hcd.verdict x
          cases hc : c.outcome x <;> cases hd : d.outcome x <;>
            simp_all [Except.map, bind, Except.bind, pure, Except.pure]
    exact (map_mapM _ _).trans ((mapM_congr hone).trans (map_mapM _ _).symm)
  refine ⟨?_, hverdicts, fun values => ?_, fun values => mapM_congr (h.imp fun c d hcd => ?_)⟩
  · rw [← List.forall₂_eq_eq_eq, List.forall₂_map_left_iff, List.forall₂_map_right_iff]
    exact h.imp fun c d hcd => hcd.id
  · have hfailing (r : Except Fault (List (String × Outcome))) : r.map failing =
        (r.map verdicts).map fun os => (os.filter fun o => !o.2.1).map (·.1) := by
      cases r with
      | error e => rfl
      | ok outcomes => exact congrArg Except.ok (failing_verdicts outcomes)
    rw [failingFields, failingFields, hfailing, hfailing, hverdicts]
  · rw [hcd.id]
    refine congrArg _ (funext fun x => ?_)
    rw [hcd.coerce]

theorem alike_of_checks (h : List.Forall₂ Check.Alike v.checks w.checks) : v.Alike w :=
  alike_of_judges (h.imp fun _ _ => Check.Alike.judgesAs)

/-- Validators whose checks say the same, one by one. -/
theorem validate_of_outcomes
    (h : List.Forall₂ (fun c d : Check => c.field.id = d.field.id ∧ ∀ x, c.outcome x = d.outcome x) v.checks w.checks)
    (values : Value) : v.validate values = w.validate values := by
  refine mapM_congr (h.imp fun c d ⟨hid, hsame⟩ => ?_)
  rw [hid]
  refine congrArg _ (funext fun x => ?_)
  rw [hsame]

theorem validate_of_written (h : List.Forall₂ Check.Alike v.checks w.checks)
    (hw : List.Forall₂ (fun c d : Check => c.field.WrittenAs d.field) v.checks w.checks) (values : Value) :
    v.validate values = w.validate values := by
  have hboth {cs ds : List Check} (h : List.Forall₂ Check.Alike cs ds)
      (hw : List.Forall₂ (fun c d : Check => c.field.WrittenAs d.field) cs ds) :
      List.Forall₂ (fun c d : Check => c.Alike d ∧ c.field.WrittenAs d.field) cs ds := by
    induction h with
    | nil => exact .nil
    | cons hcd _ ih =>
        obtain ⟨hw, hws⟩ := List.forall₂_cons.mp hw
        exact .cons ⟨hcd, hw⟩ (ih hws)
  refine validate_of_outcomes ((hboth h hw).imp fun c d ⟨hcd, hw⟩ => ?_) values
  exact ⟨hcd.field.id_eq, Check.outcome_alike hcd hw⟩

/-- Equal schemas have the same defect, or validators alike. -/
theorem ofSchema_of_eqv {s t : Schema} (h : s.eqv t) :
    (∃ e, ofSchema s = .error e ∧ ofSchema t = .error e) ∨
      ∃ v w, ofSchema s = .ok v ∧ ofSchema t = .ok w ∧ List.Forall₂ Check.Alike v.checks w.checks := by
  rw [ofSchema, ofSchema, Schema.id_of_eqv h]
  rcases checksFrom_of_eqv t.id (Schema.fields_of_eqv h) .nil with ⟨e, hs, ht⟩ | ⟨cs, ds, hs, ht, hcd⟩
  · exact .inl ⟨e, by rw [hs]; rfl, by rw [ht]; rfl⟩
  · exact .inr ⟨_, _, by rw [hs]; rfl, by rw [ht]; rfl, hcd⟩

end Validator
end Formwork
