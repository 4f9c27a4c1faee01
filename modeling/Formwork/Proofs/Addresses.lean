import Formwork.Proofs.Matching
import Formwork.Proofs.Requirements

/-!
Email addresses. An email field accepts exactly the texts `local@domain.tld`, and each of them with a line feed at its
end as well: that is what the pattern of an address matches.
-/

namespace Formwork

namespace Email

open Pattern

/-! ## The grammar of addresses -/

/-- Letters, digits, points and hyphens. -/
def DomainChar (c : Char) : Prop := c.isAlphanum ∨ c ∈ ['.', '-']

def LocalChar (c : Char) : Prop := c.isAlphanum ∨ c ∈ ['.', '_', '%', '+', '-']

/-- A domain with its last label. -/
structure Domain (labels top : List Char) : Prop where
  labels_ne : labels ≠ []
  labels_chars : ∀ c ∈ labels, DomainChar c
  top_long : 2 ≤ top.length
  top_chars : ∀ c ∈ top, c.isAlpha

/-- An address `local@domain.tld`. -/
inductive Address : List Char → Prop
  | mk {name labels top : List Char} (hne : name ≠ []) (hname : ∀ c ∈ name, LocalChar c) (hd : Domain labels top) :
      Address (name ++ '@' :: (labels ++ '.' :: top))

theorem isAsciiLower_eq (c : Char) : Text.isAsciiLower c = c.isLower := rfl

theorem isAsciiLetter_eq (c : Char) : Text.isAsciiLetter c = c.isAlpha := by
  have hupper : Text.isAsciiUpper c = c.isUpper := (Bool.decide_and _ _).symm
  rw [Text.isAsciiLetter, Char.isAlpha, hupper, isAsciiLower_eq]

theorem isLabelChar_iff {c : Char} : isLabelChar c ↔ DomainChar c := by
  have hdigit : Text.isAsciiDigit c = c.isDigit := rfl
  simp [isLabelChar, DomainChar, isAsciiLetter_eq, hdigit, Char.isAlphanum, or_assoc]

theorem isLocalChar_iff {c : Char} : isLocalChar c ↔ LocalChar c := by
  simp only [isLocalChar, LocalChar, Bool.or_eq_true, isLabelChar_iff, DomainChar, decide_eq_true_eq, List.mem_cons,
    List.not_mem_nil, or_false]
  tauto

theorem isTopLevel_iff {cs : List Char} : isTopLevel cs ↔ 2 ≤ cs.length ∧ ∀ c ∈ cs, c.isAlpha := by
  simp [isTopLevel, isAsciiLetter_eq]

section

variable {c : Char} {cs before after : List Char}

theorem takeWhile_ne (h : c ∉ before) : (before ++ c :: after).takeWhile (· ≠ c) = before := by
  have hall : ∀ d ∈ before, decide (d ≠ c) = true := fun d hd => decide_eq_true (ne_of_mem_of_not_mem hd h)
  rw [List.takeWhile_append_of_pos hall, List.takeWhile_cons_of_neg (by simp), List.append_nil]

theorem dropWhile_ne (h : c ∉ before) : (before ++ c :: after).dropWhile (· ≠ c) = c :: after := by
  have hall : ∀ d ∈ before, decide (d ≠ c) = true := fun d hd => decide_eq_true (ne_of_mem_of_not_mem hd h)
  rw [List.dropWhile_append_of_pos hall, List.dropWhile_cons_of_neg (by simp)]

theorem split_of_dropWhile (h : cs.dropWhile (· ≠ c) = c :: after) : cs = cs.takeWhile (· ≠ c) ++ c :: after := by
  rw [← h, List.takeWhile_append_dropWhile]

end

theorem not_mem_of_isAlpha {cs : List Char} {c : Char} (hcs : ∀ d ∈ cs, d.isAlpha) (hc : c.isAlpha = false) : c ∉ cs := by
  intro hm
  rw [hcs c hm] at hc
  cases hc

/-- The last label has no point, so the domain is cut at its last one. -/
theorem isDomain_iff {cs : List Char} : isDomain cs ↔ ∃ labels top, Domain labels top ∧ cs = labels ++ '.' :: top := by
  simp only [isDomain]
  constructor
  · intro h
    split at h
    · next before hd =>
        simp only [Bool.and_eq_true, Bool.not_eq_true', List.isEmpty_eq_false_iff, List.all_eq_true,
          isLabelChar_iff, isTopLevel_iff] at h
        obtain ⟨⟨hne, hall⟩, htop⟩ := h
        refine ⟨before.reverse, _, ⟨by simpa using hne, by simpa using hall, htop.1, htop.2⟩, ?_⟩
        have hsplit := congrArg List.reverse (split_of_dropWhile hd)
        simpa only [List.reverse_reverse, List.reverse_append, List.reverse_cons, List.append_assoc,
          List.singleton_append] using hsplit
    · cases h
  · rintro ⟨labels, top, hd, rfl⟩
    have hpoint : '.' ∉ top.reverse := by
      rw [List.mem_reverse]
      exact not_mem_of_isAlpha hd.top_chars rfl
    have hrev : (labels ++ '.' :: top).reverse = top.reverse ++ '.' :: labels.reverse := by simp
    rw [hrev, takeWhile_ne hpoint, dropWhile_ne hpoint]
    simp only [Bool.and_eq_true, Bool.not_eq_true', List.isEmpty_eq_false_iff, List.all_eq_true, List.mem_reverse,
      List.reverse_reverse, isLabelChar_iff, isTopLevel_iff]
    exact ⟨⟨by simpa using hd.labels_ne, hd.labels_chars⟩, hd.top_long, hd.top_chars⟩

theorem isAddress_iff {cs : List Char} : isAddress cs ↔ Address cs := by
  simp only [isAddress]
  constructor
  · intro h
    split at h
    · next domain hd =>
        simp only [Bool.and_eq_true, Bool.not_eq_true', List.isEmpty_eq_false_iff, List.all_eq_true,
          isLocalChar_iff, isDomain_iff] at h
        obtain ⟨⟨hne, hall⟩, labels, top, hdomain, rfl⟩ := h
        rw [split_of_dropWhile hd]
        exact .mk hne hall hdomain
    · cases h
  · intro h
    cases h with
    | @mk name labels top hne hname hd =>
        have hat : '@' ∉ name := fun hm => by simpa [LocalChar] using hname _ hm
        rw [takeWhile_ne hat, dropWhile_ne hat]
        simp only [Bool.and_eq_true, Bool.not_eq_true', List.isEmpty_eq_false_iff, List.all_eq_true, isLocalChar_iff,
          isDomain_iff]
        exact ⟨⟨hne, hname⟩, labels, top, hd, rfl⟩

/-- No line feed ends an address. -/
theorem Address.last_ne {cs before : List Char} (h : Address cs) : cs ≠ before ++ ['\n'] := by
  cases h with
  | @mk name labels top hne hname hd =>
      intro he
      have hfeed : '\n' ∉ top := not_mem_of_isAlpha hd.top_chars rfl
      have htop : top ≠ [] := List.ne_nil_of_length_pos (Nat.zero_lt_of_lt hd.top_long)
      have hsplit : name ++ '@' :: (labels ++ '.' :: top) = (name ++ '@' :: (labels ++ ['.'])) ++ top := by simp
      have hlast := congrArg List.getLast? (hsplit.symm.trans he)
      rw [List.getLast?_append_of_ne_nil _ htop, List.getLast?_concat] at hlast
      exact hfeed (List.mem_of_getLast? hlast)

theorem dropLineFeed_concat (cs : List Char) : dropLineFeed (cs ++ ['\n']) = cs := by
  simp [dropLineFeed]

theorem dropLineFeed_cases (cs : List Char) : dropLineFeed cs = cs ∨ cs = dropLineFeed cs ++ ['\n'] := by
  rw [dropLineFeed]
  split
  · next before hr => exact .inr (by simpa using congrArg List.reverse hr)
  · exact .inl rfl

theorem Address.dropLineFeed {cs : List Char} (h : Address cs) : dropLineFeed cs = cs :=
  (dropLineFeed_cases cs).resolve_right h.last_ne

theorem accepts_iff {s : String} : accepts s ↔ ∃ cs, Address cs ∧ (s.toList = cs ∨ s.toList = cs ++ ['\n']) := by
  rw [accepts, isAddress_iff]
  constructor
  · intro h
    rcases dropLineFeed_cases s.toList with he | he
    · exact ⟨_, h, .inl he.symm⟩
    · exact ⟨_, h, .inr he⟩
  · rintro ⟨cs, h, he | he⟩
    · rw [he, h.dropLineFeed]
      exact h
    · rw [he, dropLineFeed_concat]
      exact h

/-! ## The pattern of an address -/

def pattern : String := "^[a-zA-Z0-9._%+-]+@[a-zA-Z0-9.-]+\\.[a-zA-Z]{2,}$"

def point (c : Char) : Item := .point c.toNat

def letterItems : List Item := [.span 'a'.toNat 'z'.toNat, .span 'A'.toNat 'Z'.toNat]

def labelItems : List Item := letterItems ++ [.span '0'.toNat '9'.toNat, point '.']

def localSet : CharSet := { items := labelItems ++ ['_', '%', '+', '-'].map point }

def labelSet : CharSet := { items := labelItems ++ [point '-'] }

def topSet : CharSet := { items := letterItems }

def one (c : Char) : Node := .chars (.single c.toNat false false)

def node : Node :=
  .seq (.place .textStart) <| .seq (.repeated 1 none .greedy (.chars localSet)) <| .seq (one '@') <|
    .seq (.repeated 1 none .greedy (.chars labelSet)) <| .seq (one '.') <|
      .seq (.repeated 2 none .greedy (.chars topSet)) (.place .lastLineEnd)

theorem read_pattern : Node.read pattern = .ok node := by cbv

section

variable {set : CharSet} {c : Char}

theorem itemHolds_point {d : Char} : set.itemHolds c.toNat (point d) ↔ c = d := CharSet.itemHolds_point

theorem letterItems_hold : letterItems.any (set.itemHolds c.toNat) ↔ c.isAlpha := by
  have hupper : 'A'.toNat ≤ c.toNat ∧ c.toNat ≤ 'Z'.toNat ↔ c.isUpper := decide_eq_true_iff.symm
  have hlower : 'a'.toNat ≤ c.toNat ∧ c.toNat ≤ 'z'.toNat ↔ c.isLower := by
    rw [← isAsciiLower_eq, Text.isAsciiLower, Bool.and_eq_true, decide_eq_true_iff, decide_eq_true_iff]
    rfl
  simp only [letterItems, List.any_cons, List.any_nil, Bool.or_false, Bool.or_eq_true, CharSet.itemHolds_span,
    Char.isAlpha, hupper, hlower]
  exact or_comm

theorem labelItems_hold : labelItems.any (set.itemHolds c.toNat) ↔ c.isAlphanum ∨ c = '.' := by
  simp only [labelItems, List.any_append, List.any_cons, List.any_nil, Bool.or_false, Bool.or_eq_true, letterItems_hold,
    CharSet.itemHolds_span, itemHolds_point, Char.isAlphanum, Char.isDigit_iff_toNat, or_assoc]

theorem topSet_holds : topSet.holds c ↔ c.isAlpha := by
  rw [topSet, CharSet.holds_iff, letterItems_hold]

theorem labelSet_holds : labelSet.holds c ↔ DomainChar c := by
  rw [labelSet, CharSet.holds_iff, List.any_append, Bool.or_eq_true, labelItems_hold]
  simp [itemHolds_point, DomainChar, or_assoc]

theorem localSet_holds : localSet.holds c ↔ LocalChar c := by
  rw [localSet, CharSet.holds_iff, List.any_append, Bool.or_eq_true, labelItems_hold]
  simp [itemHolds_point, LocalChar, or_assoc]

end

/-- The pattern matches what the recogniser accepts. -/
theorem node_matchesStart (s : String) : node.matchesStart s ↔
    ∃ cs, Address cs ∧ (s.toList = cs ∨ s.toList = cs ++ ['\n']) := by
  have hend : Decides s.toList.toArray some fun _ => True := fun _ _ _ => by simp
  have htop := Node.run_atLeast_decides 2 topSet (Node.run_lastLineEnd_decides hend)
  have hlabels := Node.run_atLeast_decides 1 labelSet (Node.run_single_decides '.' htop)
  have hname := Node.run_atLeast_decides 1 localSet (Node.run_single_decides '@' hlabels)
  have hrun : node.matchesStart s ↔ _ := hname { position := 0 } s.toList (.start _)
  simp only [hrun, localSet_holds, labelSet_holds, topSet_holds]
  constructor
  · rintro ⟨name, _, hs, hne, hname, _, rfl, labels, _, rfl, hlne, hlabels, _, rfl, top, left, rfl, hlong, htop,
      hleft, -⟩
    have hdomain : Domain labels top := ⟨List.length_pos_iff.mp hlne, hlabels, hlong, htop⟩
    refine ⟨_, .mk (List.length_pos_iff.mp hne) hname hdomain, hleft.imp ?_ ?_⟩
    · rintro rfl
      rw [hs, List.append_nil]
    · rintro rfl
      simp [hs]
  · rintro ⟨_, @⟨name, labels, top, hne, hname, hd⟩, hs⟩
    obtain ⟨left, hleft, hs⟩ : ∃ left, (left = [] ∨ left = ['\n']) ∧
        s.toList = name ++ '@' :: (labels ++ '.' :: (top ++ left)) := by
      rcases hs with hs | hs
      · exact ⟨[], .inl rfl, by simp [hs]⟩
      · exact ⟨['\n'], .inr rfl, by simp [hs]⟩
    exact ⟨name, _, hs, List.length_pos_iff.mpr hne, hname, _, rfl, labels, _, rfl,
      List.length_pos_iff.mpr hd.labels_ne, hd.labels_chars, _, rfl, top, left, rfl, hd.top_long, hd.top_chars, hleft,
      trivial⟩

end Email

/-! ## Email fields -/

/-- The field limits neither the length nor the characters of a text. -/
structure Field.Unlimited (f : Field) : Prop where
  minLength : f.constraints.minLength = .null
  maxLength : f.constraints.maxLength = .null
  pattern : f.constraints.pattern = .null

namespace Check

open Requirement

variable {f : Field} {s : String}

theorem ofField_unlimited (ht : f.type = .email) (hl : f.Unlimited) : ofField f = .ok { field := f } := by
  simp [ofField, readPattern, ht, hl.pattern, FieldType.isTextLike, Except.map]

theorem find?_unlimited (ht : f.type = .email) (hl : f.Unlimited) (hs : Text.isBlankText s = false) :
    Requirement.all.find? (isViolated f (.text s)) = if Email.accepts s then none else some .email := by
  have hblank : (Value.text s).isBlank = false := hs
  have hdisplay : (Value.text s).display = s := rfl
  have hothers : [option, minLength, maxLength, Requirement.pattern].find? (isViolated f (.text s)) = none := by
    rw [List.find?_eq_none]
    intro r hr
    cases r <;> simp [isViolated, applies, fails, ht, hl.minLength, hl.maxLength, hl.pattern, FieldType.isChoice,
      Value.fallsShortOf, Value.isExceededBy, Pattern.isMissedBy, Value.asNumber?] at hr ⊢
  have hemail : isViolated f (.text s) .email = !Email.accepts s := by
    simp [isViolated, applies, fails, ht, hblank, hdisplay]
  rw [find?_congr (m := ofText) (by rw [ht, hblank]; decide), ofText, List.find?_cons, hemail, hothers]
  cases Email.accepts s <;> rfl

/-- An email field accepts the addresses, and each of them with one line feed at its end. -/
theorem email_accepts_addresses (ht : f.type = .email) (hl : f.Unlimited) :
    ∃ node c, Pattern.Node.read Email.pattern = .ok node ∧ ofField f = .ok c ∧
      ∀ s, Text.isBlankText s = false → ∃ o, c.outcome (.text s) = .ok o ∧
        (o.valid ↔ ∃ cs, Email.Address cs ∧ (s.toList = cs ∨ s.toList = cs ++ ['\n'])) ∧
        (o.valid ↔ node.matchesStart s) ∧
        (o.valid = false → o.code = some "INVALID_EMAIL") := by
  have hc := ofField_unlimited ht hl
  have hlimited : f.Limited := ⟨fun _ => ⟨.inl hl.minLength, .inl hl.maxLength⟩, fun h => by cases ht.symm.trans h⟩
  refine ⟨Email.node, _, Email.read_pattern, hc, fun s hs => ?_⟩
  have hover : ¬Overflows { field := f } (.text s) := fun ⟨hn, _⟩ => by cases ht.symm.trans hn
  obtain ⟨o, ho, hcode, hvalid⟩ := outcome_first hc hlimited hover
  rw [← find?_all_eq_none, find?_unlimited ht hl hs] at hvalid
  rw [find?_unlimited ht hl hs] at hcode
  have haccepts : o.valid ↔ Email.accepts s := by
    rw [hvalid]
    cases Email.accepts s <;> simp
  refine ⟨o, ho, haccepts.trans Email.accepts_iff, ?_, fun hv => ?_⟩
  · rw [haccepts, Email.accepts_iff, Email.node_matchesStart]
  · have hno : Email.accepts s = false := Bool.eq_false_iff.mpr fun h => by rw [haccepts.mpr h] at hv; cases hv
    rw [hcode, hno]
    rfl

end Check

/-! ## A contact -/

namespace Sample

def contact : Field := { id := "email", type := .email, label := .text "Email" }

theorem contact_unlimited : contact.Unlimited := ⟨rfl, rfl, rfl⟩

theorem ann_isAddress : Email.Address "ann@example.com".toList := Email.isAddress_iff.mp (by decide)

theorem annLine_notAddress : ¬Email.Address "ann@example.com\n".toList := by
  rw [← Email.isAddress_iff]
  decide

end Sample

namespace Check

theorem email_accepts_addresses_contact : ∃ c o p, ofField Sample.contact = .ok c ∧
    c.outcome (.text "ann@example.com") = .ok o ∧ o.valid ∧
    c.outcome (.text "ann@localhost") = .ok p ∧ p.code = some "INVALID_EMAIL" := by
  obtain ⟨node, c, -, hc, hs⟩ := email_accepts_addresses rfl Sample.contact_unlimited
  obtain ⟨o, ho, hvalid, -⟩ := hs "ann@example.com" (by decide)
  obtain ⟨p, hp, hlocal, -, hcode⟩ := hs "ann@localhost" (by decide)
  refine ⟨c, o, p, hc, ho, hvalid.mpr ⟨_, Sample.ann_isAddress, .inl rfl⟩, hp, hcode (Bool.eq_false_iff.mpr fun h => ?_)⟩
  exact absurd (Email.accepts_iff.mpr (hlocal.mp h)) (by decide)

/-- What an email field accepts is not always an address. -/
theorem lineFeed_after_address : ¬∀ (f : Field), f.type = .email → f.required = false → f.Unlimited →
    ∃ c, ofField f = .ok c ∧ ∀ s, Text.isBlankText s = false → ∃ o, c.outcome (.text s) = .ok o ∧
      (o.valid ↔ Email.Address s.toList) := by
  intro h
  obtain ⟨c, hc, hs⟩ := h Sample.contact rfl rfl Sample.contact_unlimited
  obtain ⟨o, ho, hvalid⟩ := hs "ann@example.com\n" (by decide)
  rw [ofField_unlimited rfl Sample.contact_unlimited] at hc
  obtain rfl := Except.ok.inj hc
  obtain rfl : Outcome.ok = o := Except.ok.inj ho
  exact Sample.annLine_notAddress (hvalid.mp rfl)

end Check
end Formwork
