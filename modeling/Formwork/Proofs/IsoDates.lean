import Formwork.Pattern.Reader
import Formwork.Proofs.Displays
import Formwork.Proofs.Limits
import Formwork.Proofs.Matching
import Mathlib

/-!
Dates in texts. A text is read as a date exactly if it is the form `YYYY-MM-DD` of the date between white space.
-/

namespace Formwork

namespace Calendar

variable {cs ds : List Char} {n : Nat}

/-! ## Numerals of a fixed width -/

theorem readDigits?_eq_some : readDigits? cs = some n ↔ cs ≠ [] ∧ (∀ c ∈ cs, c.isDigit) ∧ Nat.ofDigitChars 10 cs 0 = n := by
  have hread : cs.foldl (fun n c => 10 * n + (c.toNat - 48)) 0 = Nat.ofDigitChars 10 cs 0 := rfl
  rw [readDigits?, Option.ite_none_right_eq_some, hread, Option.some_inj, List.all_eq_true, and_assoc]

theorem digit_bounds {c : Char} (h : c.isDigit) : 48 ≤ c.toNat ∧ c.toNat ≤ 57 := Char.isDigit_iff_toNat.mp h

/-- The last digit of a numeral. -/
theorem ofDigitChars_concat (cs : List Char) (c : Char) :
    Nat.ofDigitChars 10 (cs ++ [c]) 0 = 10 * Nat.ofDigitChars 10 cs 0 + (c.toNat - 48) := by
  rw [Nat.ofDigitChars_append, Nat.ofDigitChars_cons, Nat.ofDigitChars_nil]
  rfl

theorem ofDigitChars_lt (h : ∀ c ∈ cs, c.isDigit) : Nat.ofDigitChars 10 cs 0 < 10 ^ cs.length := by
  induction cs using List.reverseRecOn with
  | nil => simp
  | append_singleton cs c ih =>
      have hlt := ih fun d hd => h d (List.mem_append_left _ hd)
      have hc := digit_bounds (h c (by simp))
      rw [ofDigitChars_concat, List.length_append, List.length_singleton, Nat.pow_succ]
      omega

/-- Two numerals of one width that say the same are the same. -/
theorem ofDigitChars_inj (hl : cs.length = ds.length) (hc : ∀ c ∈ cs, c.isDigit) (hd : ∀ d ∈ ds, d.isDigit)
    (h : Nat.ofDigitChars 10 cs 0 = Nat.ofDigitChars 10 ds 0) : cs = ds := by
  induction cs using List.reverseRecOn generalizing ds with
  | nil => exact (List.length_eq_zero_iff.mp hl.symm).symm
  | append_singleton cs c ih =>
      cases ds using List.reverseRecOn with
      | nil => simp at hl
      | append_singleton ds d =>
          have hcb := digit_bounds (hc c (by simp))
          have hdb := digit_bounds (hd d (by simp))
          rw [ofDigitChars_concat, ofDigitChars_concat] at h
          have hlast : c = d := Char.toNat_inj.mp (by omega)
          have hinit : cs = ds := ih (by simpa using hl) (fun e he => hc e (List.mem_append_left _ he))
            (fun e he => hd e (List.mem_append_left _ he)) (by omega)
          rw [hlast, hinit]

theorem toList_padded (width n : Nat) : (padded width n).toList =
    List.replicate (width - (Nat.toDigits 10 n).length) '0' ++ Nat.toDigits 10 n := by
  have hlength : (toString n).length = (Nat.toDigits 10 n).length := by
    rw [← String.length_toList, Nat.toString_eq_repr, Nat.toList_repr]
  rw [padded, hlength, String.toList_append, String.toList_ofList, Nat.toString_eq_repr, Nat.toList_repr]

theorem length_padded {width : Nat} (hw : 0 < width) (h : n < 10 ^ width) : (padded width n).toList.length = width := by
  have hle := (Nat.length_toDigits_le_iff (by decide) hw).mpr h
  rw [toList_padded, List.length_append, List.length_replicate]
  omega

theorem readDigits?_padded (width n : Nat) : readDigits? (padded width n).toList = some n := by
  have hzeros : ∀ k, Nat.ofDigitChars 10 (List.replicate k '0') 0 = 0 := by
    intro k
    induction k with
    | zero => rfl
    | succ k ih => rw [List.replicate_succ', ofDigitChars_concat, ih]; rfl
  refine readDigits?_eq_some.mpr ⟨?_, ?_, ?_⟩
  · simp [toList_padded, Nat.toDigits_ne_nil]
  · intro c hc
    rw [toList_padded] at hc
    rcases List.mem_append.mp hc with hc | hc
    · rw [List.eq_of_mem_replicate hc]
      rfl
    · exact Nat.isDigit_of_mem_toDigits (by decide) (by decide) hc
  · rw [toList_padded, Nat.ofDigitChars_append, hzeros, Nat.ofDigitChars_ten_toDigits]

/-- A numeral is the padded form of what it says. -/
theorem padded_of_readDigits? {width : Nat} (hw : cs.length = width) (h : readDigits? cs = some n) :
    (padded width n).toList = cs := by
  subst hw
  obtain ⟨hne, hall, hn⟩ := readDigits?_eq_some.mp h
  obtain ⟨-, hpadded, hread⟩ := readDigits?_eq_some.mp (readDigits?_padded cs.length n)
  have hlt : n < 10 ^ cs.length := hn ▸ ofDigitChars_lt hall
  exact ofDigitChars_inj (length_padded (List.length_pos_iff.mpr hne) hlt) hpadded hall (hread.trans hn.symm)

end Calendar

namespace Date

open Calendar

theorem dateError?_eq_none {year month day : Nat} : dateError? year month day = none ↔
    (1 ≤ year ∧ year ≤ 9999) ∧ (1 ≤ month ∧ month ≤ 12) ∧ 1 ≤ day ∧ day ≤ daysIn year month := by
  rw [dateError?]
  split_ifs <;> simp <;> omega

theorem daysIn_le (year month : Nat) : daysIn year month ≤ 31 := by
  rw [daysIn]
  split_ifs <;> omega

theorem toList_iso (d : Date) : d.iso.toList =
    (padded 4 d.year).toList ++ '-' :: ((padded 2 d.month).toList ++ '-' :: (padded 2 d.day).toList) := by
  simp [iso]

theorem ofParts_toOption {year month day : Nat} {d : Date} :
    (ofParts year month day).toOption = some d ↔ year = d.year ∧ month = d.month ∧ day = d.day := by
  rw [ofParts]
  split
  · next h =>
      simp only [Except.toOption, Option.some_inj]
      constructor
      · intro he
        exact he ▸ ⟨rfl, rfl, rfl⟩
      · rintro ⟨rfl, rfl, rfl⟩
        rfl
  · next e h =>
      simp only [Except.toOption, reduceCtorEq, false_iff]
      rintro ⟨rfl, rfl, rfl⟩
      cases h.symm.trans d.valid

theorem ofIso?_parts {y m d : List Char} (hy : y.length = 4) (hm : m.length = 2) (hd : d.length = 2) :
    ofIso? (y ++ '-' :: (m ++ '-' :: d)) = (do
      let year ← readDigits? y
      let month ← readDigits? m
      let day ← readDigits? d
      (ofParts year month day).toOption) := by
  match y, m, d, hy, hm, hd with
  | [_, _, _, _], [_, _], [_, _], _, _, _ => rfl

theorem parts_of_ofIso? {cs : List Char} {date : Date} (h : ofIso? cs = some date) : ∃ y m d : List Char,
    (y.length = 4 ∧ m.length = 2 ∧ d.length = 2) ∧ cs = y ++ '-' :: (m ++ '-' :: d) := by
  unfold ofIso? at h
  split at h
  · next y₁ y₂ y₃ y₄ m₁ m₂ d₁ d₂ => exact ⟨[y₁, y₂, y₃, y₄], [m₁, m₂], [d₁, d₂], ⟨rfl, rfl, rfl⟩, rfl⟩
  · cases h

/-- The form of a date is the only one that is read as the date. -/
theorem ofIso?_iff {cs : List Char} {date : Date} : ofIso? cs = some date ↔ cs = date.iso.toList := by
  rw [toList_iso]
  constructor
  · intro h
    obtain ⟨y, m, d, ⟨hy, hm, hd⟩, rfl⟩ := parts_of_ofIso? h
    rw [ofIso?_parts hy hm hd] at h
    obtain ⟨year, hyear, h⟩ := Option.bind_eq_some_iff.mp h
    obtain ⟨month, hmonth, h⟩ := Option.bind_eq_some_iff.mp h
    obtain ⟨day, hday, h⟩ := Option.bind_eq_some_iff.mp h
    obtain ⟨rfl, rfl, rfl⟩ := ofParts_toOption.mp h
    rw [padded_of_readDigits? hy hyear, padded_of_readDigits? hm hmonth, padded_of_readDigits? hd hday]
  · intro h
    obtain ⟨⟨-, hyear⟩, ⟨-, hmonth⟩, -, hday⟩ := dateError?_eq_none.mp date.valid
    have hmost := daysIn_le date.year date.month
    rw [h, ofIso?_parts (length_padded (by decide) (by omega)) (length_padded (by decide) (by omega))
      (length_padded (by decide) (by omega))]
    simp only [readDigits?_padded, Option.bind_eq_bind, Option.bind_some]
    exact ofParts_toOption.mpr ⟨rfl, rfl, rfl⟩

/-- No character of the form is white space. -/
theorem iso_visible (d : Date) : ∀ c ∈ d.iso.toList, Text.isBlank c = false := by
  have hdigits (width n : Nat) : ∀ c ∈ (padded width n).toList, Text.isBlank c = false := fun c hc =>
    Text.isBlank_of_isDigit ((readDigits?_eq_some.mp (readDigits?_padded width n)).2.1 c hc)
  have hdash : Text.isBlank '-' = false := rfl
  simp only [toList_iso, List.forall_mem_append, List.forall_mem_cons]
  exact ⟨hdigits 4 d.year, hdash, hdigits 2 d.month, hdash, hdigits 2 d.day⟩

theorem iso_ne (d : Date) : d.iso.toList ≠ [] := by
  simp [toList_iso]

end Date

namespace Text

variable {cs core : List Char}

/-- What is left between the white space. -/
theorem trimList_cut (cs : List Char) :
    cs = cs.takeWhile isBlank ++ trimList cs ++ ((cs.dropWhile isBlank).reverse.takeWhile isBlank).reverse := by
  rw [trimList, List.append_assoc, ← List.reverse_append, List.takeWhile_append_dropWhile, List.reverse_reverse,
    List.takeWhile_append_dropWhile]

theorem dropWhile_visible (hne : core ≠ []) (hcore : ∀ c ∈ core, isBlank c = false) {before : List Char}
    (hb : before.all isBlank) (after : List Char) : (before ++ (core ++ after)).dropWhile isBlank = core ++ after := by
  rw [List.dropWhile_append_of_pos (List.all_eq_true.mp hb)]
  obtain ⟨c, core, rfl⟩ := List.exists_cons_of_ne_nil hne
  rw [List.cons_append, List.dropWhile_cons_of_neg (by simp [hcore c])]

/-- A text without white space is what is left of another if the other is that text between white space. -/
theorem trimList_eq_iff (hne : core ≠ []) (hcore : ∀ c ∈ core, isBlank c = false) : trimList cs = core ↔
    ∃ before after, before.all isBlank ∧ after.all isBlank ∧ cs = before ++ core ++ after := by
  constructor
  · intro h
    refine ⟨_, _, ?_, ?_, h ▸ trimList_cut cs⟩
    · exact List.all_takeWhile
    · rw [List.all_reverse]
      exact List.all_takeWhile
  · rintro ⟨before, after, hb, ha, rfl⟩
    have hdrop := dropWhile_visible hne hcore hb after
    have hrest : (after.reverse ++ (core.reverse ++ [])).dropWhile isBlank = core.reverse ++ [] :=
      dropWhile_visible (by simpa using hne) (by simpa using hcore) (by rwa [List.all_reverse]) []
    rw [List.append_nil] at hrest
    rw [trimList, List.append_assoc, hdrop, List.reverse_append, hrest, List.reverse_reverse]

end Text

/-! ## The pattern of a date -/

namespace Text

theorem isDigit_of_ascii {c : Char} (h : c.isDigit) : isDigit c := by
  obtain ⟨hl, hg⟩ := Calendar.digit_bounds h
  have hascii : isAsciiDigit c := by simp [isAsciiDigit, hl, hg]
  rw [isDigit, digit?, if_pos (by omega), if_pos hascii]
  rfl

end Text

namespace Date

open Calendar Pattern

def pattern : String := "^\\d{4}-\\d{2}-\\d{2}$"

def digits (width : Nat) : Node :=
  .repeated width (some width) .greedy (.chars { items := [.category .digit false] })

def dash : Node := .chars (.single '-'.toNat false false)

def node : Node :=
  .seq (.place .textStart) <| .seq (digits 4) <| .seq dash <| .seq (digits 2) <| .seq dash <|
    .seq (digits 2) (.place .lastLineEnd)

theorem read_pattern : Node.read pattern = .ok node := by cbv

/-- So many digits, of any script. -/
def Numeral (width : Nat) (cs : List Char) : Prop := cs.length = width ∧ ∀ c ∈ cs, Text.isDigit c

theorem padded_numeral {width n : Nat} (hw : 0 < width) (h : n < 10 ^ width) : Numeral width (padded width n).toList :=
  ⟨length_padded hw h, fun c hc => Text.isDigit_of_ascii ((readDigits?_eq_some.mp (readDigits?_padded width n)).2.1 c hc)⟩

theorem digits_decides {text : Array Char} {k : Progress → Option Progress} {P : List Char → Prop} (width : Nat)
    (h : Decides text k P) : Decides text (fun t => (digits width).run text t k)
      fun cs => ∃ number left, cs = number ++ left ∧ Numeral width number ∧ P left := by
  intro t cs ht
  refine (Node.run_exactly_decides width _ h t cs ht).trans ?_
  simp only [CharSet.digit_holds, Numeral, and_assoc]

/-- The pattern asks for no more than digits, of any script. -/
theorem node_matchesStart (s : String) : node.matchesStart s ↔
    ∃ y m d, (Numeral 4 y ∧ Numeral 2 m ∧ Numeral 2 d) ∧ ∃ left, (left = [] ∨ left = ['\n']) ∧
      s.toList = y ++ '-' :: (m ++ '-' :: (d ++ left)) := by
  have hend : Decides s.toList.toArray some fun _ => True := fun _ _ _ => by simp
  have hday := digits_decides 2 (Node.run_lastLineEnd_decides hend)
  have hmonth := digits_decides 2 (Node.run_single_decides '-' hday)
  have hyear := digits_decides 4 (Node.run_single_decides '-' hmonth)
  have hrun : node.matchesStart s ↔ _ := hyear { position := 0 } s.toList (.start _)
  rw [hrun]
  constructor
  · rintro ⟨y, _, hs, hy, _, rfl, m, _, rfl, hm, _, rfl, d, left, rfl, hd, hleft, -⟩
    exact ⟨y, m, d, ⟨hy, hm, hd⟩, left, hleft, hs⟩
  · rintro ⟨y, m, d, ⟨hy, hm, hd⟩, left, hleft, hs⟩
    exact ⟨y, _, hs, hy, _, rfl, m, _, rfl, hm, _, rfl, d, left, rfl, hd, hleft, trivial⟩

theorem matchesStart_iso (d : Date) : node.matchesStart d.iso := by
  obtain ⟨⟨-, hyear⟩, ⟨-, hmonth⟩, -, hday⟩ := dateError?_eq_none.mp d.valid
  have hmost := daysIn_le d.year d.month
  refine (node_matchesStart d.iso).mpr ⟨_, _, _, ⟨padded_numeral (n := d.year) (by decide) (by omega),
    padded_numeral (n := d.month) (by decide) (by omega), padded_numeral (n := d.day) (by decide) (by omega)⟩,
    [], .inl rfl, ?_⟩
  rw [toList_iso, List.append_nil]

end Date

theorem Date.trim_eq_iso {s : String} {d : Date} : Text.trim s = d.iso ↔ ∃ before after : List Char,
    before.all Text.isBlank ∧ after.all Text.isBlank ∧ s.toList = before ++ d.iso.toList ++ after := by
  rw [← Text.trimList_eq_iff d.iso_ne d.iso_visible, ← String.toList_inj, Text.trim, String.toList_ofList]

namespace Value

theorem date?_eq_some {s : String} {d : Date} : (text s).date? = some d ↔ Text.trim s = d.iso := by
  rw [date?, Date.ofIso?_iff, ← String.toList_inj, Text.trim, String.toList_ofList]

/-- A text is read as a date exactly if it is the form of the date between white space, and the pattern of a date stops
none of them. -/
theorem date_iff_iso :
    (∀ s d, (text s).date? = some d ↔ Text.trim s = d.iso) ∧
    (∀ d : Date, (text d.iso).date? = some d) ∧
    (∀ s, (text s).date? = none ↔ ¬∃ (d : Date) (before after : List Char),
      before.all Text.isBlank ∧ after.all Text.isBlank ∧ s.toList = before ++ d.iso.toList ++ after) ∧
    ∃ node, Pattern.Node.read Date.pattern = .ok node ∧
      ∀ s, (text s).date? = if node.matchesStart (Text.trim s) then Date.ofIso? (Text.trim s).toList else none := by
  refine ⟨fun s d => date?_eq_some, fun d => ?_, fun s => ?_, Date.node, Date.read_pattern, fun s => ?_⟩
  · exact date?_eq_some.mpr (Date.trim_eq_iso.mpr ⟨[], [], rfl, rfl, by rw [List.nil_append, List.append_nil]⟩)
  · simp only [Option.eq_none_iff_forall_ne_some, ne_eq, date?_eq_some, Date.trim_eq_iso, not_exists]
  · have hread : (text s).date? = Date.ofIso? (Text.trim s).toList := by rw [date?, Text.trim, String.toList_ofList]
    rw [hread]
    cases hd : Date.ofIso? (Text.trim s).toList with
    | none => rw [ite_self]
    | some d =>
        have hiso : Text.trim s = d.iso := String.toList_inj.mp (Date.ofIso?_iff.mp hd)
        rw [if_pos (by rw [hiso]; exact d.matchesStart_iso)]

example : (text " 2024-02-29\n").date? = some ⟨2024, 2, 29, rfl⟩ := by decide

end Value
end Formwork
