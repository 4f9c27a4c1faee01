import Formwork.FieldId
import Mathlib.Data.List.Forall2
import Mathlib.Tactic.IntervalCases

/-!
Naming styles of field ids. However an id is spelled, its words are those that it was spelled from, so whether it is the
name of a person or an age does not depend on the style; and a word fused with `name` qualifies the name as it does
when it stands by itself.
-/

namespace Formwork.FieldId

/-! ## Spelling -/

/-- A word of two small letters or more. -/
structure Word where
  text : String
  long : 2 ≤ text.toList.length
  small : ∀ c ∈ text.toList, Text.isAsciiLower c

namespace Word

def capitalized (w : Word) : String := String.ofList (w.text.toList.modifyHead Char.toUpper)

/-- The word fused with `name`. -/
def named (w : Word) : Word where
  text := w.text ++ "name"
  long := by
    rw [String.toList_append, List.length_append]
    exact Nat.le_add_right_of_le w.long
  small := by
    rw [String.toList_append]
    exact List.forall_mem_append.mpr ⟨w.small, List.all_eq_true.mp (by decide)⟩

def name : Word := ⟨"name", by decide, List.all_eq_true.mp (by decide)⟩

def EndsInName (w : Word) : Prop := "name".toList <:+ w.text.toList

instance (w : Word) : Decidable w.EndsInName := inferInstanceAs (Decidable (_ <:+ _))

end Word

inductive NamingStyle
  | camelCase
  | pascalCase
  | snakeCase
  | kebabCase
  | dotted
  | spaced
deriving DecidableEq

def NamingStyle.spell : NamingStyle → List Word → String
  | camelCase, [] => ""
  | camelCase, w :: ws => w.text ++ String.join (ws.map Word.capitalized)
  | pascalCase, ws => String.join (ws.map Word.capitalized)
  | snakeCase, ws => "_".intercalate (ws.map Word.text)
  | kebabCase, ws => "-".intercalate (ws.map Word.text)
  | dotted, ws => ".".intercalate (ws.map Word.text)
  | spaced, ws => " ".intercalate (ws.map Word.text)

/-! ## Small letters -/

def letters : List Char := "abcdefghijklmnopqrstuvwxyz".toList

section

variable {c : Char}

theorem mem_letters (h : Text.isAsciiLower c) : c ∈ letters := by
  obtain ⟨hl, hg⟩ : 97 ≤ c.toNat ∧ c.toNat ≤ 122 := by simpa [Text.isAsciiLower] using h
  rw [← Char.ofNat_toNat c]
  interval_cases c.toNat <;> decide

theorem of_letters {p : Char → Bool} (hall : letters.all p) (h : Text.isAsciiLower c) : p c :=
  List.all_eq_true.mp hall c (mem_letters h)

theorem not_isSeparator (h : Text.isAsciiLower c) : isSeparator c = false :=
  (Bool.not_eq_true' _).mp (of_letters (p := fun d => !isSeparator d) (by decide) h)

theorem not_isAsciiUpper (h : Text.isAsciiLower c) : Text.isAsciiUpper c = false :=
  (Bool.not_eq_true' _).mp (of_letters (p := fun d => !Text.isAsciiUpper d) (by decide) h)

theorem isAsciiUpper_toUpper (h : Text.isAsciiLower c) : Text.isAsciiUpper c.toUpper :=
  of_letters (p := fun d => Text.isAsciiUpper d.toUpper) (by decide) h

/-- The small letter of an ASCII character; what is no capital stays as it is. -/
def LowersTo (c d : Char) : Prop := c.toNat < 128 ∧ Text.lowerChar c = d

instance (c d : Char) : Decidable (LowersTo c d) := inferInstanceAs (Decidable (_ ∧ _))

theorem lowersTo_self (h : Text.isAsciiLower c) : LowersTo c c :=
  of_decide_eq_true (of_letters (p := fun d => LowersTo d d) (by decide) h)

theorem lowersTo_toUpper (h : Text.isAsciiLower c) : LowersTo c.toUpper c :=
  of_decide_eq_true (of_letters (p := fun d => LowersTo d.toUpper d) (by decide) h)

end

/-- Characters of the ASCII range are lowered one by one. -/
theorem lowerFrom_of_lowersTo {cs ds : List Char} (h : List.Forall₂ LowersTo cs ds) (before : List Char) :
    Text.lowerFrom before cs = ds := by
  induction h generalizing before with
  | nil => rfl
  | @cons c d cs ds hc _ ih =>
      obtain ⟨hascii, hlower⟩ := hc
      have hin : Text.lowerIn before c cs = [Text.lowerChar c] := by
        rw [Text.lowerIn, if_neg (by simp; omega), if_neg (by simp; omega)]
      rw [Text.lowerFrom, hin, ih, hlower, List.singleton_append]

/-! ## Words between separators -/

theorem wordsFrom_append {cs : List Char} (h : ∀ c ∈ cs, isSeparator c = false) (word rest : List Char) :
    wordsFrom word (cs ++ rest) = wordsFrom (cs.reverse ++ word) rest := by
  induction cs generalizing word with
  | nil => rfl
  | cons c cs ih =>
      obtain ⟨hc, h⟩ := List.forall_mem_cons.mp h
      rw [List.cons_append, wordsFrom, if_neg (by simp [hc]), ih h, List.reverse_cons, List.append_assoc]
      rfl

/-- A text of words with a separator between any two has just these words. -/
theorem wordsFrom_intercalate {s : Char} (hs : isSeparator s) {words : List (List Char)}
    (h : ∀ w ∈ words, w ≠ [] ∧ ∀ c ∈ w, isSeparator c = false) : wordsFrom [] ([s].intercalate words) = words := by
  induction words with
  | nil => rfl
  | cons w words ih =>
      obtain ⟨⟨hne, hw⟩, h⟩ := List.forall_mem_cons.mp h
      cases words with
      | nil =>
          have hlast := wordsFrom_append hw [] []
          simpa [wordsFrom, hne] using hlast
      | cons v words =>
          have hne' : w.reverse.isEmpty = false := by simpa using hne
          rw [List.intercalate_cons_cons, List.append_assoc, wordsFrom_append hw, List.append_nil, List.singleton_append,
            wordsFrom, if_pos hs, ih h, hne']
          simp

/-! ## Humps -/

theorem spaced_eq_self {cs : List Char} (h : ∀ c ∈ cs, Text.isAsciiUpper c = false) : spaced cs = cs := by
  fun_induction spaced cs with
  | case1 c d rest hup ih =>
      rw [Bool.and_eq_true, h d (by simp)] at hup
      cases hup.2
  | case2 c d rest _ ih => rw [ih (List.forall_mem_cons.mp h).2]
  | case3 => rfl

/-- A capital after small letters begins a word. -/
theorem spaced_append {cs : List Char} {d : Char} (hne : cs ≠ []) (h : ∀ c ∈ cs, Text.isAsciiLower c)
    (hd : Text.isAsciiUpper d) (rest : List Char) : spaced (cs ++ d :: rest) = cs ++ ' ' :: spaced (d :: rest) := by
  induction cs with
  | nil => exact absurd rfl hne
  | cons c cs ih =>
      obtain ⟨hc, h⟩ := List.forall_mem_cons.mp h
      cases cs with
      | nil => simp [spaced, hc, hd]
      | cons b cs =>
          have hb : Text.isAsciiUpper b = false := not_isAsciiUpper (h b List.mem_cons_self)
          rw [List.cons_append, List.cons_append, spaced, if_neg (by simp [hb]), ← List.cons_append, ih (by simp) h]
          rfl

theorem spaced_cons {cs : List Char} (hne : cs ≠ []) (h : ∀ c ∈ cs, Text.isAsciiLower c) (d : Char) (rest : List Char) :
    spaced (d :: (cs ++ rest)) = d :: spaced (cs ++ rest) := by
  cases cs with
  | nil => exact absurd rfl hne
  | cons c cs =>
      have hc : Text.isAsciiUpper c = false := not_isAsciiUpper (h c List.mem_cons_self)
      rw [List.cons_append, spaced, if_neg (by simp [hc])]

theorem cons_intercalate (d : Char) (sep cs : List Char) (rest : List (List Char)) :
    d :: sep.intercalate (cs :: rest) = sep.intercalate ((d :: cs) :: rest) := by
  cases rest <;> simp

namespace Word

variable (w : Word)

theorem toList_text : ∃ c cs, w.text.toList = c :: cs ∧ cs ≠ [] ∧ Text.isAsciiLower c ∧ ∀ d ∈ cs, Text.isAsciiLower d := by
  obtain ⟨text, hlong, hsmall⟩ := w
  cases hcs : text.toList with
  | nil => simp [hcs] at hlong
  | cons c cs =>
      obtain ⟨hc, hcs'⟩ := List.forall_mem_cons.mp (hcs ▸ hsmall)
      exact ⟨c, cs, rfl, by rintro rfl; simp [hcs] at hlong, hc, hcs'⟩

theorem toList_capitalized {c : Char} {cs : List Char} (h : w.text.toList = c :: cs) :
    w.capitalized.toList = c.toUpper :: cs := by
  rw [capitalized, String.toList_ofList, h, List.modifyHead_cons]

theorem text_lowersTo : List.Forall₂ LowersTo w.text.toList w.text.toList :=
  List.forall₂_same.mpr fun c hc => lowersTo_self (w.small c hc)

theorem capitalized_lowersTo : List.Forall₂ LowersTo w.capitalized.toList w.text.toList := by
  obtain ⟨c, cs, hw, -, hc, hcs⟩ := w.toList_text
  rw [w.toList_capitalized hw, hw]
  exact .cons (lowersTo_toUpper hc) (List.forall₂_same.mpr fun d hd => lowersTo_self (hcs d hd))

end Word

/-- After small letters, every capitalized word is set apart. -/
theorem spaced_capitalized {cs : List Char} (hne : cs ≠ []) (h : ∀ c ∈ cs, Text.isAsciiLower c) (ws : List Word) :
    spaced (cs ++ ws.flatMap (·.capitalized.toList)) = [' '].intercalate (cs :: ws.map (·.capitalized.toList)) := by
  induction ws generalizing cs with
  | nil => simpa using spaced_eq_self fun c hc => not_isAsciiUpper (h c hc)
  | cons w ws ih =>
      obtain ⟨d, small, hw, hne', hd, hsmall⟩ := w.toList_text
      rw [List.flatMap_cons, List.map_cons, w.toList_capitalized hw, List.cons_append,
        spaced_append hne h (isAsciiUpper_toUpper hd), spaced_cons hne' hsmall, ih hne' hsmall, cons_intercalate,
        List.intercalate_cons_cons, List.append_assoc]
      rfl

theorem lowersTo_intercalate {s : Char} (hs : LowersTo s s) {xs ys : List (List Char)}
    (h : List.Forall₂ (List.Forall₂ LowersTo) xs ys) :
    List.Forall₂ LowersTo ([s].intercalate xs) ([s].intercalate ys) := by
  induction h with
  | nil => exact .nil
  | @cons x y xs ys hxy hrest ih =>
      cases hrest with
      | nil => simpa using hxy
      | cons => simpa using List.rel_append hxy (.cons hs ih)

/-! ## The words of an id -/

theorem mem_intercalate {s c : Char} {words : List (List Char)} (h : c ∈ [s].intercalate words) :
    c = s ∨ ∃ w ∈ words, c ∈ w := by
  induction words with
  | nil => simp at h
  | cons w words ih =>
      cases words with
      | nil => exact .inr ⟨w, by simpa using h⟩
      | cons v words =>
          rw [List.intercalate_cons_cons, List.append_assoc, List.mem_append, List.singleton_append, List.mem_cons] at h
          rcases h with h | rfl | h
          · exact .inr ⟨w, by simp, h⟩
          · exact .inl rfl
          · exact (ih h).imp_right fun ⟨u, hu, hc⟩ => ⟨u, List.mem_cons_of_mem _ hu, hc⟩

theorem lowersTo_words (ws : List Word) :
    List.Forall₂ (List.Forall₂ LowersTo) (ws.map (·.text.toList)) (ws.map (·.text.toList)) :=
  List.forall₂_same.mpr fun _ hcs => by
    obtain ⟨w, -, rfl⟩ := List.mem_map.mp hcs
    exact w.text_lowersTo

theorem lowersTo_capitalized (ws : List Word) :
    List.Forall₂ (List.Forall₂ LowersTo) (ws.map (·.capitalized.toList)) (ws.map (·.text.toList)) := by
  rw [List.forall₂_map_left_iff, List.forall₂_map_right_iff, List.forall₂_same]
  exact fun w _ => w.capitalized_lowersTo

/-- Words with separators between them stay as they are. -/
theorem spaced_intercalate {s : Char} (hs : Text.isAsciiUpper s = false) (ws : List Word) :
    spaced ([s].intercalate (ws.map (·.text.toList))) = [s].intercalate (ws.map (·.text.toList)) := by
  refine spaced_eq_self fun c hc => ?_
  rcases mem_intercalate hc with rfl | ⟨cs, hcs, hc⟩
  · exact hs
  · obtain ⟨w, -, rfl⟩ := List.mem_map.mp hcs
    exact not_isAsciiUpper (w.small c hc)

theorem separated_lowersTo {sep : String} {s : Char} (hsep : sep.toList = [s]) (hl : LowersTo s s)
    (hs : Text.isAsciiUpper s = false) (ws : List Word) :
    List.Forall₂ LowersTo (spaced (sep.intercalate (ws.map Word.text)).toList) ([s].intercalate (ws.map (·.text.toList))) := by
  have hchars : (sep.intercalate (ws.map Word.text)).toList = [s].intercalate (ws.map (·.text.toList)) := by
    simp [hsep, Function.comp_def]
  rw [hchars, spaced_intercalate hs]
  exact lowersTo_intercalate hl (lowersTo_words ws)

/-- In every style the words of an id end up with a separator between any two, but for capitals. -/
theorem spell_lowersTo (style : NamingStyle) (ws : List Word) : ∃ s, isSeparator s ∧
    List.Forall₂ LowersTo (spaced (style.spell ws).toList) ([s].intercalate (ws.map (·.text.toList))) := by
  have hspace : LowersTo ' ' ' ' := by decide
  cases style with
  | camelCase =>
      refine ⟨' ', rfl, ?_⟩
      cases ws with
      | nil => exact .nil
      | cons w ws =>
          obtain ⟨c, cs, hw, hne, hc, hcs⟩ := w.toList_text
          have hsmall : spaced (w.text.toList ++ ws.flatMap (·.capitalized.toList)) =
              [' '].intercalate (w.text.toList :: ws.map (·.capitalized.toList)) :=
            spaced_capitalized (by simp [hw]) w.small ws
          rw [NamingStyle.spell, String.toList_append, String.toList_join, List.flatMap_map, hsmall]
          exact lowersTo_intercalate hspace (.cons w.text_lowersTo (lowersTo_capitalized ws))
  | pascalCase =>
      refine ⟨' ', rfl, ?_⟩
      cases ws with
      | nil => exact .nil
      | cons w ws =>
          obtain ⟨c, cs, hw, hne, hc, hcs⟩ := w.toList_text
          rw [NamingStyle.spell, String.toList_join, List.flatMap_map, List.flatMap_cons, w.toList_capitalized hw,
            List.cons_append, spaced_cons hne hcs, spaced_capitalized hne hcs, cons_intercalate, ← w.toList_capitalized hw]
          exact lowersTo_intercalate hspace (lowersTo_capitalized (w :: ws))
  | snakeCase => exact ⟨'_', rfl, separated_lowersTo (by decide) (by decide) rfl ws⟩
  | kebabCase => exact ⟨'-', rfl, separated_lowersTo (by decide) (by decide) rfl ws⟩
  | dotted => exact ⟨'.', rfl, separated_lowersTo (by decide) (by decide) rfl ws⟩
  | spaced => exact ⟨' ', rfl, separated_lowersTo (by decide) hspace rfl ws⟩

theorem tokens_spell (style : NamingStyle) (ws : List Word) : tokens (style.spell ws) = ws.map Word.text := by
  obtain ⟨s, hs, hlower⟩ := spell_lowersTo style ws
  have hwords : ∀ cs ∈ ws.map (·.text.toList), cs ≠ [] ∧ ∀ c ∈ cs, isSeparator c = false := by
    refine List.forall_mem_map.mpr fun w _ => ⟨?_, fun c hc => not_isSeparator (w.small c hc)⟩
    obtain ⟨c, cs, hw, -⟩ := w.toList_text
    simp [hw]
  rw [tokens, Text.lower, String.toList_ofList, String.toList_ofList, lowerFrom_of_lowersTo hlower,
    wordsFrom_intercalate hs hwords]
  simp [Function.comp_def]

/-! ## Names -/

section

variable {q : Word}

theorem qualifier?_eq_none (h : ¬ q.EndsInName) : qualifier? q.text = none := by
  unfold qualifier?
  split
  · next before hq =>
      have hend : q.text.toList = before.reverse ++ "name".toList := by
        rw [← List.reverse_reverse q.text.toList, hq]
        simp
      exact absurd ⟨before.reverse, hend.symm⟩ h
  · rfl

theorem qualifier?_named (q : Word) : qualifier? q.named.text = some q.text := by
  have hq : q.named.text.toList.reverse = 'e' :: 'm' :: 'a' :: 'n' :: q.text.toList.reverse := by
    simp [Word.named]
  simp [qualifier?, hq]

theorem text_ne_empty (q : Word) : q.text ≠ "" := by
  intro h
  have hlong := q.long
  rw [h] at hlong
  cases hlong

/-- A word fused with `name` is a person's name when the name after that word is. -/
theorem anyPersonName_named (h : ¬ q.EndsInName) (ws : List Word) (before : Option String) :
    anyPersonName before ((ws ++ [q.named]).map Word.text) = anyPersonName before ((ws ++ [q, .name]).map Word.text) := by
  induction ws generalizing before with
  | nil =>
      have hname : qualifier? Word.name.text = some "" := by decide
      simp [anyPersonName, isPersonName, qualifier?_named, qualifier?_eq_none h, hname, text_ne_empty]
  | cons w ws ih => simp only [List.cons_append, List.map_cons, anyPersonName, ih]

end

/-- The words of an id, and whether it is a person's name or an age, do not depend on its style; and a word says the same
fused with `name` as in front of it. -/
theorem naming_style_irrelevant (style style' : NamingStyle) :
    (∀ ws, tokens (style.spell ws) = ws.map Word.text ∧ isNameLike (style.spell ws) = isNameLike (style'.spell ws) ∧
      isAgeLike (style.spell ws) = isAgeLike (style'.spell ws)) ∧
    ∀ ws (q : Word), ¬ q.EndsInName →
      isNameLike (style.spell (ws ++ [q.named])) = isNameLike (style'.spell (ws ++ [q, .name])) := by
  refine ⟨fun ws => ⟨tokens_spell style ws, ?_, ?_⟩, fun ws q hq => ?_⟩
  · rw [isNameLike, isNameLike, tokens_spell, tokens_spell]
  · rw [isAgeLike, isAgeLike, tokens_spell, tokens_spell]
  · rw [isNameLike, isNameLike, tokens_spell, tokens_spell, anyPersonName_named hq]

namespace Sample

def server : Word := ⟨"server", by decide, List.all_eq_true.mp (by decide)⟩

def host : Word := ⟨"host", by decide, List.all_eq_true.mp (by decide)⟩

end Sample

theorem naming_style_irrelevant_hostname :
    NamingStyle.camelCase.spell [Sample.server, Sample.host.named] = "serverHostname" ∧
      NamingStyle.kebabCase.spell [Sample.server, Sample.host, .name] = "server-host-name" ∧
      ¬ Sample.host.EndsInName ∧ isNameLike "serverHostname" = isNameLike "server-host-name" := by
  have hcamel : NamingStyle.camelCase.spell [Sample.server, Sample.host.named] = "serverHostname" := by decide
  have hkebab : NamingStyle.kebabCase.spell [Sample.server, Sample.host, .name] = "server-host-name" := by decide
  have hq : ¬ Sample.host.EndsInName := by decide
  refine ⟨hcamel, hkebab, hq, ?_⟩
  rw [← hcamel, ← hkebab]
  exact (naming_style_irrelevant .camelCase .kebabCase).2 [Sample.server] Sample.host hq

end Formwork.FieldId
