import Formwork.Proofs.Checks
import Mathlib.Order.Bounds.Defs

/-!
Defects of a form. A form has a validator exactly if it is sound: its field ids are distinct, its choice fields have
options and its patterns can be read. Otherwise the first field with which the form has no validator is at fault, whatever
comes after it.
-/

namespace Formwork

/-- The text is a pattern, or there is a mistake in it. -/
def Pattern.Readable (pattern : String) : Prop :=
  (∃ node, Node.read pattern = .ok node) ∨ ∃ message position, Node.read pattern = .error (.invalid message position)

namespace Field

/-- The pattern, if there is one, is a text. -/
def PatternGiven (f : Field) : Prop := f.constraints.pattern = .null ∨ ∃ p, f.constraints.pattern = .text p

/-- Reading the pattern gives a pattern or finds a mistake. Only a field of text has its pattern read. -/
def PatternReadable (f : Field) : Prop :=
  f.type.isTextLike → ∀ p, f.constraints.pattern = .text p → Pattern.Readable p

/-- Nothing is wrong with the field by itself. -/
structure Sound (f : Field) : Prop where
  options : f.type.isChoice → f.options ≠ []
  pattern : f.type.isTextLike → ∀ p, f.constraints.pattern = .text p → ∃ node, Pattern.Node.read p = .ok node

end Field

namespace Schema

/-- Nothing is wrong with a field, and no two fields share an id. -/
structure Sound (s : Schema) : Prop where
  ids : s.ids.Nodup
  fields : ∀ f ∈ s.fields, f.Sound

def HasValidator (s : Schema) : Prop := ∃ v, Validator.ofSchema s = .ok v

/-- The form with its first fields only. -/
def cut (s : Schema) (n : Nat) : Schema := { s with fields := s.fields.take n }

end Schema

/-! ## One field -/

namespace Check

variable {f : Field} {e : Fault}

theorem ofField_error (h : ofField f = .error e) : f.type.isTextLike ∧ readPattern f = .error e := by
  unfold ofField at h
  split at h
  · next ht =>
      cases hp : readPattern f with
      | error e' =>
          rw [hp] at h
          cases h
          exact ⟨ht, rfl⟩
      | ok p =>
          rw [hp] at h
          cases h
  · cases h

/-- A defect that is found in the pattern of a field names the field. -/
theorem readPattern_defect {d : Defect} (h : readPattern f = .error (.defect d)) : d.field? = some f.id := by
  unfold readPattern at h
  split at h
  · cases h
  · split at h <;> cases h
    rfl
  · cases h

theorem readPattern_error (hg : f.PatternGiven) (hr : ∀ p, f.constraints.pattern = .text p → Pattern.Readable p)
    (h : readPattern f = .error e) : ∃ d, e = .defect d := by
  rcases hg with hn | ⟨p, hp⟩
  · rw [readPattern, hn] at h
    cases h
  · rw [readPattern, hp] at h
    rcases hr p hp with ⟨node, hread⟩ | ⟨message, position, hread⟩
    · simp [hread] at h
    · simp only [hread, Except.error.injEq] at h
      exact ⟨_, h.symm⟩

theorem ofField_ok_iff (hg : f.PatternGiven) : (∃ c, ofField f = .ok c) ↔
    (f.type.isTextLike → ∀ p, f.constraints.pattern = .text p → ∃ node, Pattern.Node.read p = .ok node) := by
  unfold ofField
  split
  · next ht =>
      rcases hg with hn | ⟨p, hp⟩
      · simp [readPattern, hn, Except.map]
      · cases hread : Pattern.Node.read p with
        | ok node => simp [readPattern, hp, hread, Except.map]
        | error e => cases e <;> simp [readPattern, hp, hread, Except.map, ht]
  · next ht => simp [ht]

end Check

namespace Validator

variable {form : String} {before : List Check} {f : Field} {fields : List Field} {e : Fault}

theorem checkAfter_ok_iff (form : String) (before : List Check) (hg : f.PatternGiven) :
    (∃ c, checkAfter form before f = .ok c) ↔ f.id ∉ before.map (fun c => c.field.id) ∧ f.Sound := by
  have hany : (before.any fun c => c.field.id = f.id) = true ↔ f.id ∈ before.map (fun c => c.field.id) := by simp
  unfold checkAfter
  split
  · next h => simp [hany.mp h]
  · next h =>
      have hnew : f.id ∉ before.map (fun c => c.field.id) := fun hm => h (hany.mpr hm)
      split
      · next hc =>
          have hempty : f.options = [] := List.isEmpty_iff.mp hc.2
          exact ⟨fun ⟨c, h⟩ => (nomatch h), fun ⟨_, hs⟩ => absurd hempty (hs.options hc.1)⟩
      · next hc =>
          have hoptions : f.type.isChoice → f.options ≠ [] := fun ht he => hc ⟨ht, by simp [he]⟩
          rw [Check.ofField_ok_iff hg]
          exact ⟨fun hp => ⟨hnew, hoptions, hp⟩, fun ⟨_, hs⟩ => hs.pattern⟩

/-- A defect that is found at a field names the field. -/
theorem checkAfter_defect {d : Defect} (h : checkAfter form before f = .error (.defect d)) : d.field? = some f.id := by
  unfold checkAfter at h
  split at h
  · cases h
    rfl
  · split at h
    · cases h
      rfl
    · exact Check.readPattern_defect (Check.ofField_error h).2

theorem checkAfter_error (hg : f.PatternGiven) (hr : f.PatternReadable) (h : checkAfter form before f = .error e) :
    ∃ d, e = .defect d := by
  unfold checkAfter at h
  split at h
  · cases h
    exact ⟨_, rfl⟩
  · split at h
    · cases h
      exact ⟨_, rfl⟩
    · obtain ⟨ht, hp⟩ := Check.ofField_error h
      exact Check.readPattern_error hg (hr ht) hp

/-! ## All fields -/

theorem checksFrom_append (form : String) (before : List Check) (fields more : List Field) :
    checksFrom form before (fields ++ more) =
      checksFrom form before fields >>= fun checks => checksFrom form checks more := by
  induction fields generalizing before with
  | nil => rfl
  | cons f fields ih =>
      rw [List.cons_append, checksFrom, checksFrom]
      cases checkAfter form before f with
      | error e => rfl
      | ok c => exact ih (before ++ [c])

/-- All fields get a check if each is sound and its id is new. -/
theorem checksFrom_ok_iff (form : String) (before : List Check) (hg : ∀ f ∈ fields, f.PatternGiven) :
    (∃ checks, checksFrom form before fields = .ok checks) ↔
      (∀ f ∈ fields, f.id ∉ before.map (fun c => c.field.id)) ∧ (fields.map (·.id)).Nodup ∧ ∀ f ∈ fields, f.Sound := by
  induction fields generalizing before with
  | nil => simp [checksFrom]
  | cons f fields ih =>
      obtain ⟨hgf, hg⟩ := List.forall_mem_cons.mp hg
      have hstep : (∃ checks, checksFrom form before (f :: fields) = .ok checks) ↔
          (f.id ∉ before.map (fun c => c.field.id) ∧ f.Sound) ∧
            (∀ g ∈ fields, g.id ∉ before.map (fun c => c.field.id) ∧ g.id ≠ f.id) ∧
              (fields.map (·.id)).Nodup ∧ ∀ g ∈ fields, g.Sound := by
        simp only [checksFrom, bind_ok]
        constructor
        · rintro ⟨checks, c, hc, h⟩
          refine ⟨(checkAfter_ok_iff form before hgf).mp ⟨c, hc⟩, ?_⟩
          simpa [(checkAfter_ok hc).1, not_or] using (ih _ hg).mp ⟨checks, h⟩
        · rintro ⟨hf, hrest⟩
          obtain ⟨c, hc⟩ := (checkAfter_ok_iff form before hgf).mpr hf
          obtain ⟨checks, h⟩ := (ih (before ++ [c]) hg).mpr (by simpa [(checkAfter_ok hc).1, not_or] using hrest)
          exact ⟨checks, c, hc, h⟩
      rw [hstep, List.forall_mem_cons, List.forall_mem_cons, List.map_cons, List.nodup_cons]
      have hnew : f.id ∉ fields.map (·.id) ↔ ∀ g ∈ fields, g.id ≠ f.id := by simp
      simp only [hnew, imp_and, forall_and]
      tauto

/-- The first field without a check, given the checks of those before it. -/
theorem checksFrom_error (h : checksFrom form before fields = .error e) : ∃ k f checks, fields[k]? = some f ∧
    checksFrom form before (fields.take k) = .ok checks ∧ checkAfter form checks f = .error e := by
  induction fields generalizing before with
  | nil => cases h
  | cons f fields ih =>
      rw [checksFrom] at h
      cases hc : checkAfter form before f with
      | error e' =>
          rw [hc] at h
          cases h
          exact ⟨0, f, before, rfl, rfl, hc⟩
      | ok c =>
          rw [hc] at h
          obtain ⟨k, g, checks, hk, hchecks, hg⟩ := ih h
          exact ⟨k + 1, g, checks, hk, by rw [List.take_succ_cons, checksFrom, hc]; exact hchecks, hg⟩

section

variable {s : Schema}

theorem ofSchema_ok_iff : s.HasValidator ↔ ∃ checks, checksFrom s.id [] s.fields = .ok checks := by
  unfold Schema.HasValidator ofSchema
  cases checksFrom s.id [] s.fields <;> simp [Except.map]

theorem ofSchema_error_iff : ofSchema s = .error e ↔ checksFrom s.id [] s.fields = .error e := by
  unfold ofSchema
  cases checksFrom s.id [] s.fields <;> simp [Except.map]

theorem hasValidator_iff_sound (hg : ∀ f ∈ s.fields, f.PatternGiven) : s.HasValidator ↔ s.Sound := by
  rw [ofSchema_ok_iff, checksFrom_ok_iff _ _ hg]
  exact ⟨fun ⟨_, hids, hfields⟩ => ⟨hids, hfields⟩, fun ⟨hids, hfields⟩ => ⟨by simp, hids, hfields⟩⟩

/-- A form without a validator has a first field with which it has none, and its fault is found there: it stays the same
whatever fields come later, and if it is a defect it names that field. -/
theorem ofSchema_error (h : ofSchema s = .error e) : ∃ k f checks, s.fields[k]? = some f ∧
    IsLeast {j | ¬ (s.cut (j + 1)).HasValidator} k ∧ checkAfter s.id checks f = .error e ∧
    ∀ rest, ofSchema { s with fields := s.fields.take (k + 1) ++ rest } = .error e := by
  obtain ⟨k, f, checks, hk, hchecks, hf⟩ := checksFrom_error (ofSchema_error_iff.mp h)
  have htake : s.fields.take (k + 1) = s.fields.take k ++ [f] := by
    rw [List.take_add_one, hk]
    rfl
  have hfault (rest : List Field) : checksFrom s.id [] (s.fields.take (k + 1) ++ rest) = .error e := by
    rw [htake, List.append_assoc, checksFrom_append, hchecks]
    simp only [bind, Except.bind, List.singleton_append, checksFrom, hf]
  refine ⟨k, f, checks, hk, ⟨?_, fun j hj => ?_⟩, hf, fun rest => ofSchema_error_iff.mpr (hfault rest)⟩
  · intro hv
    obtain ⟨checks', h'⟩ := ofSchema_ok_iff.mp hv
    have he : checksFrom s.id [] (s.cut (k + 1)).fields = .error e := by simpa [Schema.cut] using hfault []
    cases he.symm.trans h'
  · -- A shorter cut is a part of the fields that have a check.
    by_contra hlt
    refine hj (ofSchema_ok_iff.mpr ?_)
    have hsplit : s.fields.take k = s.fields.take (j + 1) ++ (s.fields.take k).drop (j + 1) := by
      have hmin : min (j + 1) k = j + 1 := by omega
      conv_lhs => rw [← List.take_append_drop (j + 1) (s.fields.take k), List.take_take, hmin]
    rw [hsplit, checksFrom_append] at hchecks
    obtain ⟨checks', hcut, -⟩ := bind_ok.mp hchecks
    exact ⟨checks', hcut⟩

end

end Validator

namespace Schema

/-- A form has a validator exactly if it is sound, with one check for each field in order. Otherwise it has a defect,
which names the first field with which the form has no validator and does not depend on the fields after it. -/
theorem first_defect_reported {s : Schema} (hg : ∀ f ∈ s.fields, f.PatternGiven)
    (hr : ∀ f ∈ s.fields, f.PatternReadable) :
    (s.HasValidator ↔ s.Sound) ∧
    (∀ v, Validator.ofSchema s = .ok v → v.schema = s ∧ v.checks.map (fun c => c.field.id) = s.ids) ∧
    (¬ s.HasValidator → ∃ k f d, s.fields[k]? = some f ∧ IsLeast {j | ¬ (s.cut (j + 1)).HasValidator} k ∧
      Validator.ofSchema s = .error (.defect d) ∧ d.field? = some f.id ∧
      ∀ rest, Validator.ofSchema { s with fields := s.fields.take (k + 1) ++ rest } = .error (.defect d)) := by
  refine ⟨Validator.hasValidator_iff_sound hg,
    fun v hv => ⟨Validator.ofSchema_schema hv, Validator.ofSchema_ids hv⟩, fun hn => ?_⟩
  cases h : Validator.ofSchema s with
  | ok v => exact absurd ⟨v, h⟩ hn
  | error e =>
      obtain ⟨k, f, checks, hk, hleast, hf, hrest⟩ := Validator.ofSchema_error h
      have hm : f ∈ s.fields := List.mem_of_getElem? hk
      obtain ⟨d, rfl⟩ := Validator.checkAfter_error (hg f hm) (hr f hm) hf
      exact ⟨k, f, d, hk, hleast, rfl, Validator.checkAfter_defect hf, hrest⟩

namespace Sample

/-- A choice without options, then an id that is there already, then a pattern with a mistake. -/
def muddled : Schema where
  id := "visit"
  title := .text "Visit"
  fields := [
    { id := "name", type := .text, label := .text "Name" },
    { id := "colour", type := .select, label := .text "Colour" },
    { id := "name", type := .text, label := .text "Name" },
    { id := "code", type := .text, label := .text "Code", constraints := .text .null .null (.text "[") }]

end Sample

theorem first_defect_reported_muddled :
    (∀ f ∈ Sample.muddled.fields, f.PatternGiven) ∧
    (∀ f ∈ Sample.muddled.fields, f.PatternReadable) ∧
    ¬ Sample.muddled.HasValidator ∧
    ∃ k f d, Sample.muddled.fields[k]? = some f ∧ IsLeast {j | ¬ (Sample.muddled.cut (j + 1)).HasValidator} k ∧
      Validator.ofSchema Sample.muddled = .error (.defect d) ∧ d.field? = some f.id ∧ d.field? = some "colour" := by
  have hread : Pattern.Node.read "[" = .error (.invalid "unterminated character set" (some 0)) := rfl
  have hg : ∀ f ∈ Sample.muddled.fields, f.PatternGiven := by
    simp [Sample.muddled, Field.PatternGiven, Constraints.pattern]
  have hr : ∀ f ∈ Sample.muddled.fields, f.PatternReadable := by
    simp [Sample.muddled, Field.PatternReadable, FieldType.isTextLike, Constraints.pattern, Pattern.Readable, hread]
  have hfault : Validator.ofSchema Sample.muddled = .error (.defect (.noOptions "colour" .select)) := rfl
  have hn : ¬ Sample.muddled.HasValidator := by
    rintro ⟨v, hv⟩
    cases hfault.symm.trans hv
  obtain ⟨k, f, d, hk, hleast, hd, hf, -⟩ := (first_defect_reported hg hr).2.2 hn
  refine ⟨hg, hr, hn, k, f, d, hk, hleast, hd, hf, ?_⟩
  cases hfault.symm.trans hd
  rfl

end Schema
end Formwork
