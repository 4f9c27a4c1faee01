import Formwork.Proofs.EqualForms
import Formwork.Proofs.Limits
import Formwork.Proofs.Totality
import Mathlib

/-!
The requirements of a field, in the order in which they are tried. A check finds the first one that a value violates,
and a field that demands more rejects at least as much.
-/

namespace Formwork

namespace Value

/-- There is a limit, and the number is below it. -/
def fallsShortOf (limit : Value) (n : Number) : Bool := limit.asNumber?.any n.lt

/-- There is a limit, and the number is above it. -/
def isExceededBy (limit : Value) (n : Number) : Bool := limit.asNumber?.any fun b => b.lt n

end Value

/-- The limits that a field compares with are numbers. -/
structure Field.Limited (f : Field) : Prop where
  lengths : f.type.isTextLike → f.constraints.minLength.IsLimit ∧ f.constraints.maxLength.IsLimit
  range : f.type = .number → f.constraints.min.IsLimit ∧ f.constraints.max.IsLimit

/-- The text is not matched by the pattern that the value writes. -/
def Pattern.isMissedBy (pattern : Value) (text : String) : Bool :=
  match pattern with
  | .text s => (Node.read s).toOption.any fun node => !node.matchesAll text
  | _ => false

inductive Requirement
  | required
  | email
  | option
  | minLength
  | maxLength
  | pattern
  | number
  | minValue
  | maxValue
  | date
deriving DecidableEq

namespace Requirement

def ofText : List Requirement := [email, option, minLength, maxLength, pattern]

def ofNumber : List Requirement := [number, minValue, maxValue]

/-- In the order in which they are tried. -/
def all : List Requirement := required :: (ofText ++ (ofNumber ++ [date]))

def code : Requirement → String
  | required => "REQUIRED"
  | email => "INVALID_EMAIL"
  | option => "INVALID_OPTION"
  | minLength => "MIN_LENGTH"
  | maxLength => "MAX_LENGTH"
  | pattern => "PATTERN_MISMATCH"
  | number => "INVALID_NUMBER"
  | minValue => "MIN_VALUE"
  | maxValue => "MAX_VALUE"
  | date => "INVALID_DATE"

/-- A blank value is only asked whether it may be missing, any other value what its type asks for. -/
def applies (type : FieldType) (blank : Bool) : Requirement → Bool
  | required => type ≠ .checkbox && blank
  | email => type = .email && !blank
  | option => type.isChoice && !blank
  | minLength | maxLength | pattern => type.isTextLike && !blank
  | number | minValue | maxValue => type = .number && !blank
  | date => type = .date && !blank

/-- The value does not have what is required. -/
def fails (f : Field) (v : Value) : Requirement → Bool
  | required => f.required
  | email => !Email.accepts v.display
  | option => !f.options.any fun o => o.value = v.display
  | minLength => f.constraints.minLength.fallsShortOf (Check.lengthOf v.display)
  | maxLength => f.constraints.maxLength.isExceededBy (Check.lengthOf v.display)
  | pattern => Pattern.isMissedBy f.constraints.pattern v.display
  | number => v.number?.toOption = some none
  | minValue => v.number?.toOption.join.any f.constraints.min.fallsShortOf
  | maxValue => v.number?.toOption.join.any f.constraints.max.isExceededBy
  | date => v.date?.isNone

def isViolated (f : Field) (v : Value) (r : Requirement) : Bool := r.applies f.type v.isBlank && r.fails f v

def violation (f : Field) (v : Value) : Requirement → Violation
  | required => .required
  | email => .invalidEmail
  | option => .invalidOption v.display
  | minLength => .minLength f.constraints.minLength
  | maxLength => .maxLength f.constraints.maxLength
  | pattern => .patternMismatch
  | number => .invalidNumber
  | minValue => .minValue f.constraints.min
  | maxValue => .maxValue f.constraints.max
  | date => .invalidDate

theorem code_violation (f : Field) (v : Value) (r : Requirement) : (r.violation f v).code = r.code := by
  cases r <;> rfl

theorem mem_all (r : Requirement) : r ∈ all := by
  cases r <;> decide

/-- Requirements that do not apply are passed over. -/
theorem find?_congr {f : Field} {v : Value} {l m : List Requirement}
    (h : l.filter (applies f.type v.isBlank) = m.filter (applies f.type v.isBlank)) :
    l.find? (isViolated f v) = m.find? (isViolated f v) := by
  have hfilter (l : List Requirement) :
      (l.filter (applies f.type v.isBlank)).find? (isViolated f v) = l.find? (isViolated f v) := by
    rw [List.find?_filter]
    congr
    funext r
    simp [isViolated]
  rw [← hfilter l, h, hfilter m]

theorem find?_all_eq_none {f : Field} {v : Value} :
    all.find? (isViolated f v) = none ↔ ∀ r : Requirement, ¬r.isViolated f v := by
  rw [List.find?_eq_none]
  exact ⟨fun h r => h r r.mem_all, fun h r _ => h r⟩

end Requirement

namespace Check

open Requirement

variable {c : Check} {f : Field} {v : Value}

theorem exceeds_eq {limit : Value} (hl : limit.IsLimit) (test : Number → Bool) (found : Value → Violation) :
    exceeds limit (fun v => v.bound.map test) found =
      .ok (if limit.asNumber?.any test then some (found limit) else none) := by
  rcases hl with rfl | ⟨b, hb⟩
  · rfl
  · have hnull : limit.isNull = false := by cases limit <;> first | rfl | cases hb
    simp [exceeds, hnull, Value.bound, hb, Except.map]

/-- Rules that try requirements one after the other find the first one that is violated. -/
theorem firstOf_eq {rules : List (Unit → Except Fault (Option Violation))} {rs : List Requirement}
    {broken : Requirement → Bool} {found : Requirement → Violation}
    (h : List.Forall₂ (fun rule r => rule () = .ok (if broken r then some (found r) else none)) rules rs) :
    firstOf rules = .ok ((rs.find? broken).map found) := by
  induction h with
  | nil => rfl
  | @cons rule r _ rs hr _ ih =>
      rw [firstOf, hr, List.find?_cons]
      cases hb : broken r with
      | true => rfl
      | false => exact ih

theorem pattern_any (hc : ofField f = .ok c) (ht : f.type.isTextLike) (text : String) :
    (c.pattern.any fun node => !node.matchesAll text) = Pattern.isMissedBy f.constraints.pattern text := by
  rw [ofField, if_pos ht] at hc
  obtain ⟨node, hread, rfl⟩ := map_ok.mp hc
  rw [readPattern] at hread
  split at hread
  · next hp =>
      obtain rfl := Except.ok.inj hread
      rw [hp]
      rfl
  · next s hp =>
      cases hr : Pattern.Node.read s with
      | ok found =>
          obtain rfl : some found = node := by simpa [hr] using hread
          simp [hp, Pattern.isMissedBy, hr, Except.toOption]
      | error e => cases e <;> simp [hr] at hread
  · cases hread

theorem textViolation_eq (hc : ofField f = .ok c) (hl : f.Limited) (ht : f.type.isTextLike)
    (hb : v.isBlank = false) :
    c.textViolation v.display = .ok ((ofText.find? (isViolated f v)).map (violation f v)) := by
  have hpattern := pattern_any hc ht v.display
  obtain ⟨hmin, hmax⟩ := hl.lengths ht
  obtain rfl := ofField_field hc
  refine firstOf_eq (.cons ?_ (.cons ?_ (.cons ?_ (.cons ?_ (.cons ?_ .nil)))))
  · simp [ruleIf, isViolated, applies, fails, violation, hb]
  · simp [ruleIf, isViolated, applies, fails, violation, hb, isOption]
  · rw [isViolated, applies, ht, hb]
    exact exceeds_eq hmin (lengthOf v.display).lt .minLength
  · rw [isViolated, applies, ht, hb]
    exact exceeds_eq hmax (fun b => b.lt (lengthOf v.display)) .maxLength
  · simp [ruleIf, isViolated, applies, fails, violation, hb, ht, hpattern]

theorem numberViolation_eq (hl : c.field.Limited) (ht : c.field.type = .number) (hb : v.isBlank = false)
    {n : Option Number} (hn : v.number? = .ok n) :
    c.numberViolation v = .ok ((ofNumber.find? (isViolated c.field v)).map (violation c.field v)) := by
  obtain ⟨hmin, hmax⟩ := hl.range ht
  rw [numberViolation, hn]
  cases n with
  | none =>
      have hfirst : isViolated c.field v .number := by simp [isViolated, applies, fails, ht, hb, hn, Except.toOption]
      rw [ofNumber, List.find?_cons_of_pos hfirst]
      rfl
  | some n =>
      have hfirst : ¬isViolated c.field v .number := by simp [isViolated, fails, hn, Except.toOption]
      rw [ofNumber, List.find?_cons_of_neg hfirst]
      refine firstOf_eq (.cons ?_ (.cons ?_ .nil))
      · simp only [isViolated, applies, fails, ht, hb, hn]
        exact exceeds_eq hmin n.lt .minValue
      · simp only [isViolated, applies, fails, ht, hb, hn]
        exact exceeds_eq hmax (fun b => b.lt n) .maxValue

/-- A check finds the first requirement that is violated. -/
theorem violation?_eq (hc : ofField f = .ok c) (hl : f.Limited) (ho : ¬c.Overflows v) :
    c.violation? v = .ok ((Requirement.all.find? (isViolated f v)).map (violation f v)) := by
  have hf := ofField_field hc
  rw [violation?, hf]
  by_cases hbox : f.type = .checkbox
  · rw [if_pos hbox, find?_congr (m := []) (by rw [hbox]; cases v.isBlank <;> decide)]
    rfl
  rw [if_neg hbox]
  cases hb : v.isBlank with
  | true =>
      have hfirst : isViolated f v .required = f.required := by simp [isViolated, applies, fails, hbox, hb]
      rw [if_pos rfl, find?_congr (m := [.required]) (by rw [hb]; cases f.type <;> decide), List.find?_cons, hfirst]
      cases f.required <;> rfl
  | false =>
      rw [if_neg (by simp)]
      cases ht : f.type with
      | number =>
          cases hn : v.number? with
          | error e =>
              -- only an integer that overflows cannot be read
              obtain ⟨-, n, rfl, hover⟩ := Value.number?_error hn
              exact absurd ⟨hf ▸ ht, n, rfl, hover⟩ ho
          | ok n =>
              have hfound := numberViolation_eq (hf ▸ hl) (hf ▸ ht) hb hn
              rw [hf] at hfound
              rw [find?_congr (m := ofNumber) (by rw [ht, hb]; decide)]
              exact hfound
      | date =>
          rw [find?_congr (m := [.date]) (by rw [ht, hb]; decide)]
          cases hd : v.date? <;> simp [ruleIf, isViolated, applies, fails, violation, ht, hb, hd]
      | checkbox => exact absurd ht hbox
      | _ =>
          rw [find?_congr (m := ofText) (by rw [ht, hb]; decide)]
          exact textViolation_eq hc hl (by rw [ht]; rfl) hb

/-- What a check reports is the code of the first requirement that is violated. -/
theorem outcome_first (hc : ofField f = .ok c) (hl : f.Limited) (ho : ¬c.Overflows v) :
    ∃ o, c.outcome v = .ok o ∧ o.code = (Requirement.all.find? (isViolated f v)).map code ∧
      (o.valid ↔ ∀ r : Requirement, ¬r.isViolated f v) := by
  refine ⟨_, by rw [outcome, violation?_eq hc hl ho]; rfl, ?_, ?_⟩
  · cases Requirement.all.find? (isViolated f v) with
    | none => rfl
    | some r => exact congrArg some (code_violation f v r)
  · cases hfind : Requirement.all.find? (isViolated f v) with
    | none => exact iff_of_true rfl (find?_all_eq_none.mp hfind)
    | some r => exact iff_of_false Bool.false_ne_true fun h => h r (List.find?_some hfind)

end Check

/-! ## Demanding more -/

theorem Extended.lt_trans {x y z : Extended} (hxy : x.lt y) (hyz : y.lt z) : x.lt z := by
  cases x <;> cases y <;> cases z <;> simp_all [Extended.lt]
  next a b c => exact hxy.trans hyz

namespace Number

variable {a b n : Number}

theorem lt_trans (hab : a.lt b) (hbn : b.lt n) : a.lt n := by
  rw [lt] at *
  cases ha : a.extended? <;> cases hb : b.extended? <;> cases hn : n.extended? <;> simp_all
  exact Extended.lt_trans hab hbn

theorem lt_of_lt_of_atMost (hn : n.lt a) (h : a.AtMost b) : n.lt b := by
  rcases h with h | h
  · exact lt_trans hn h
  · rwa [← lt_congr_right h]

theorem lt_of_atMost_of_lt (h : a.AtMost b) (hn : b.lt n) : a.lt n := by
  rcases h with h | h
  · exact lt_trans h hn
  · rwa [lt_congr_left h]

end Number

namespace Value

variable {l m : Value} {n : Number}

/-- The second limit lets nothing pass from below that the first one stops. -/
structure RaisedTo (l m : Value) : Prop where
  limit : m.IsLimit
  raised : l = .null ∨ ∃ a b, l.asNumber? = some a ∧ m.asNumber? = some b ∧ a.AtMost b

structure LoweredTo (l m : Value) : Prop where
  limit : m.IsLimit
  lowered : l = .null ∨ ∃ a b, l.asNumber? = some a ∧ m.asNumber? = some b ∧ b.AtMost a

theorem RaisedTo.before (h : l.RaisedTo m) : l.IsLimit := h.raised.imp_right fun ⟨a, _, ha, _⟩ => ⟨a, ha⟩

theorem LoweredTo.before (h : l.LoweredTo m) : l.IsLimit := h.lowered.imp_right fun ⟨a, _, ha, _⟩ => ⟨a, ha⟩

theorem RaisedTo.fallsShortOf (h : l.RaisedTo m) (hn : l.fallsShortOf n) : m.fallsShortOf n := by
  rcases h.raised with rfl | ⟨a, b, ha, hb, hab⟩
  · cases hn
  · simp only [Value.fallsShortOf, ha, hb, Option.any_some] at hn ⊢
    exact Number.lt_of_lt_of_atMost hn hab

theorem LoweredTo.isExceededBy (h : l.LoweredTo m) (hn : l.isExceededBy n) : m.isExceededBy n := by
  rcases h.lowered with rfl | ⟨a, b, ha, hb, hba⟩
  · cases hn
  · simp only [Value.isExceededBy, ha, hb, Option.any_some] at hn ⊢
    exact Number.lt_of_atMost_of_lt hba hn

end Value

/-- The second field demands at least what the first one does. -/
structure Field.TightenedTo (f g : Field) : Prop where
  type : g.type = f.type
  required : f.required → g.required
  options : f.type.isChoice → ∀ o ∈ g.options, ∃ p ∈ f.options, p.value = o.value
  pattern : f.constraints.pattern = .null ∨ g.constraints.pattern = f.constraints.pattern
  lengths : f.type.isTextLike → f.constraints.minLength.RaisedTo g.constraints.minLength ∧
    f.constraints.maxLength.LoweredTo g.constraints.maxLength
  range : f.type = .number → f.constraints.min.RaisedTo g.constraints.min ∧
    f.constraints.max.LoweredTo g.constraints.max

namespace Field.TightenedTo

variable {f g : Field} {v : Value}

theorem before (h : f.TightenedTo g) : f.Limited where
  lengths ht := (h.lengths ht).imp Value.RaisedTo.before Value.LoweredTo.before
  range ht := (h.range ht).imp Value.RaisedTo.before Value.LoweredTo.before

theorem limited (h : f.TightenedTo g) : g.Limited where
  lengths ht := (h.lengths (h.type ▸ ht)).imp Value.RaisedTo.limit Value.LoweredTo.limit
  range ht := (h.range (h.type ▸ ht)).imp Value.RaisedTo.limit Value.LoweredTo.limit

theorem fails (h : f.TightenedTo g) {r : Requirement} (ha : r.applies f.type v.isBlank) (hr : r.fails f v) :
    r.fails g v := by
  cases r with
  | required => exact h.required hr
  | email | number | date => exact hr
  | option =>
      have hc : f.type.isChoice := (Bool.and_eq_true_iff.mp ha).1
      simp only [Requirement.fails, Bool.not_eq_true', List.any_eq_false, decide_eq_true_eq] at hr ⊢
      intro o ho he
      obtain ⟨p, hp, hpo⟩ := h.options hc o ho
      exact hr p hp (hpo.trans he)
  | minLength => exact (h.lengths (Bool.and_eq_true_iff.mp ha).1).1.fallsShortOf hr
  | maxLength => exact (h.lengths (Bool.and_eq_true_iff.mp ha).1).2.isExceededBy hr
  | pattern =>
      rcases h.pattern with hnull | hsame
      · simp [Requirement.fails, hnull, Pattern.isMissedBy] at hr
      · rwa [Requirement.fails, hsame]
  | minValue =>
      have ht : f.type = .number := decide_eq_true_iff.mp (Bool.and_eq_true_iff.mp ha).1
      cases hn : v.number?.toOption.join with
      | none => simp [Requirement.fails, hn] at hr
      | some n =>
          simp only [Requirement.fails, hn, Option.any_some] at hr ⊢
          exact (h.range ht).1.fallsShortOf hr
  | maxValue =>
      have ht : f.type = .number := decide_eq_true_iff.mp (Bool.and_eq_true_iff.mp ha).1
      cases hn : v.number?.toOption.join with
      | none => simp [Requirement.fails, hn] at hr
      | some n =>
          simp only [Requirement.fails, hn, Option.any_some] at hr ⊢
          exact (h.range ht).2.isExceededBy hr

theorem isViolated (h : f.TightenedTo g) {r : Requirement} (hr : r.isViolated f v) : r.isViolated g v := by
  obtain ⟨ha, hf⟩ := Bool.and_eq_true_iff.mp hr
  rw [Requirement.isViolated, h.type, ha]
  exact h.fails ha hf

theorem rejects (h : f.TightenedTo g) {c d : Check} (hc : Check.ofField f = .ok c) (hd : Check.ofField g = .ok d)
    {o : Outcome} (ho : c.outcome v = .ok o) (hv : o.valid = false) : ∃ p, d.outcome v = .ok p ∧ p.valid = false := by
  have hover : ¬c.Overflows v := fun hover => by cases (Check.outcome_of_overflows hover).symm.trans ho
  have hover' : ¬d.Overflows v := by
    rwa [Check.Overflows, Check.ofField_field hd, h.type, ← Check.ofField_field hc]
  obtain ⟨o', ho', -, hvalid⟩ := Check.outcome_first hc h.before hover
  obtain ⟨p, hp, -, hvalid'⟩ := Check.outcome_first hd h.limited hover'
  obtain rfl := Except.ok.inj (ho.symm.trans ho')
  refine ⟨p, hp, Bool.eq_false_iff.mpr fun hpv => ?_⟩
  exact Bool.eq_false_iff.mp hv (hvalid.mpr fun r hr => hvalid'.mp hpv r (h.isViolated hr))

end Field.TightenedTo

namespace Requirement

/-- What can be required of a text, in the order in which it is tried. -/
def textual : List Requirement := required :: ofText

theorem find?_textual {f : Field} {v : Value} (ht : f.type.isTextLike) :
    all.find? (isViolated f v) = textual.find? (isViolated f v) := by
  refine find?_congr ?_
  cases hf : f.type <;> cases v.isBlank <;> first | decide | (rw [hf] at ht; cases ht)

theorem isViolated_blank {f : Field} {v : Value} {r : Requirement} (hb : v.isBlank) (hr : r.isViolated f v) :
    r = required := by
  cases r <;> simp_all [isViolated, applies]

end Requirement

namespace Check

open Requirement

/-- What a field rejects, a field that demands more rejects as well, and a text is rejected for the first of the
requirements that it violates. -/
theorem rejects_for_first_violation {f : Field} {c : Check} (hc : ofField f = .ok c) :
    (∀ g d, ofField g = .ok d → f.TightenedTo g → ∀ v o, c.outcome v = .ok o → o.valid = false →
      ∃ p, d.outcome v = .ok p ∧ p.valid = false) ∧
    (f.type.isTextLike → f.Limited → ∀ v, ∃ o, c.outcome v = .ok o ∧
      (o.valid ↔ ∀ r ∈ textual, ¬r.isViolated f v) ∧
      o.code = (textual.find? (isViolated f v)).map code ∧
      (v.isBlank → ∀ r : Requirement, r.isViolated f v → r = .required)) := by
  constructor
  · intro g d hd hfg v o ho hv
    exact hfg.rejects hc hd ho hv
  · intro ht hl v
    have hover : ¬c.Overflows v := fun ⟨hn, _⟩ => by
      rw [ofField_field hc] at hn
      simp [hn, FieldType.isTextLike] at ht
    obtain ⟨o, ho, hcode, hvalid⟩ := outcome_first hc hl hover
    refine ⟨o, ho, ?_, by rw [hcode, find?_textual ht], fun hb r => isViolated_blank hb⟩
    calc o.valid ↔ all.find? (isViolated f v) = none := hvalid.trans find?_all_eq_none.symm
      _ ↔ ∀ r ∈ textual, ¬r.isViolated f v := by rw [find?_textual ht, List.find?_eq_none]

example : textual.map code =
    ["REQUIRED", "INVALID_EMAIL", "INVALID_OPTION", "MIN_LENGTH", "MAX_LENGTH", "PATTERN_MISMATCH"] := rfl

end Check

/-! ## A nickname, and what may be demanded of it -/

namespace Sample

def nickname : Field where
  id := "nickname"
  type := .text
  label := .text "Nickname"
  constraints := .text (.int 2) .null .null

def shortNickname : Field :=
  { nickname with required := true, constraints := .text (.int 3) (.int 5) (.text "[a-z]+") }

def lowerCase : Pattern.Node := (Pattern.Node.read "[a-z]+").toOption.get (by cbv)

theorem nickname_tightened : nickname.TightenedTo shortNickname where
  type := rfl
  required h := nomatch h
  options h := nomatch h
  pattern := .inl rfl
  lengths _ := ⟨⟨.inr ⟨_, rfl⟩, .inr ⟨_, _, rfl, rfl, .inl rfl⟩⟩, ⟨.inr ⟨_, rfl⟩, .inl rfl⟩⟩
  range h := nomatch h

theorem shortNickname_limited : shortNickname.Limited where
  lengths _ := ⟨.inr ⟨_, rfl⟩, .inr ⟨_, rfl⟩⟩
  range h := nomatch h

theorem shortNickname_compiles :
    Check.ofField shortNickname = .ok { field := shortNickname, pattern := some lowerCase } := by
  have hread : Pattern.Node.read "[a-z]+" = .ok lowerCase := by cbv
  simp only [Check.ofField, Check.readPattern, shortNickname, Constraints.pattern, hread]
  rfl

end Sample

/-- A nickname of one letter is too short for both fields, and one of two letters for the second, before its capital
letter counts. -/
theorem Check.rejects_for_first_violation_nickname :
    (∃ p, Check.outcome { field := Sample.shortNickname, pattern := some Sample.lowerCase } (.text "A") = .ok p ∧
      p.valid = false) ∧
    ∃ o, Check.outcome { field := Sample.shortNickname, pattern := some Sample.lowerCase } (.text "Al") = .ok o ∧
      o.code = some "MIN_LENGTH" := by
  constructor
  · exact (rejects_for_first_violation (f := Sample.nickname) rfl).1 _ _ Sample.shortNickname_compiles
      Sample.nickname_tightened (.text "A") _ rfl rfl
  · obtain ⟨o, ho, -, hcode, -⟩ :=
      (rejects_for_first_violation Sample.shortNickname_compiles).2 rfl Sample.shortNickname_limited (.text "Al")
    exact ⟨o, ho, hcode.trans (by decide)⟩

end Formwork
