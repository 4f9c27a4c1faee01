import Formwork.Proofs.Bounds
import Formwork.Proofs.EqualForms
import Formwork.Validator.Cache
import Mathlib.Data.List.Induction

/-!
A cache of validators gives a validator that judges like the one of the schema it is asked for. Its messages are those
of an equal schema: the same ones, unless a label or a limit is written in another way there.
-/

namespace Formwork

/-! ## Forms of the declared types -/

namespace Field

variable {f g : Field}

/-- The label is a text, lengths are integers and bounds are numbers. -/
structure Declared (f : Field) : Prop where
  label : ∃ s, f.label = .text s
  minLength : f.constraints.minLength = .null ∨ ∃ n, f.constraints.minLength = .int n
  maxLength : f.constraints.maxLength = .null ∨ ∃ n, f.constraints.maxLength = .int n
  min : f.constraints.min = .null ∨ ∃ n, f.constraints.min = .number n ∧ n.Reduced
  max : f.constraints.max = .null ∨ ∃ n, f.constraints.max = .number n ∧ n.Reduced

theorem display_of_eqv {a b : Value} (h : a.eqv b) (ha : a = .null ∨ ∃ n, a = .int n)
    (hb : b = .null ∨ ∃ n, b = .int n) : a.display = b.display := by
  rcases ha with rfl | ⟨m, rfl⟩ <;> rcases hb with rfl | ⟨n, rfl⟩
  · rfl
  · cases h
  · cases h
  · have hmn : m = n := by
      simpa [Value.eqv, Value.same, Value.int, Value.asNumber?, Value.sameNumber, Value.isNaN, Number.isNaN, Number.eqv,
        Number.extended?] using h
    rw [hmn]

theorem boundText_of_eqv {a b : Value} (h : a.eqv b) (ha : a = .null ∨ ∃ n, a = .number n ∧ n.Reduced)
    (hb : b = .null ∨ ∃ n, b = .number n ∧ n.Reduced) : a.boundText = b.boundText := by
  rcases ha with rfl | ⟨m, rfl, hm⟩ <;> rcases hb with rfl | ⟨n, rfl, hn⟩
  · rfl
  · cases h
  · cases h
  · rcases Value.asNumber?_of_eqv h with ⟨hnone, -⟩ | ⟨x, y, hx, hy, he⟩
    · cases hnone
    · cases hx
      cases hy
      exact Number.boundText_of_eqv hm hn he

theorem Declared.writtenAs (hf : f.Declared) (hg : g.Declared) (h : f.Eqv g) : f.WrittenAs g := by
  have hlimits := Constraints.eqv_of_same h.constraints
  have hlabel : f.label.display = g.label.display := by
    obtain ⟨s, hs⟩ := hf.label
    obtain ⟨t, ht⟩ := hg.label
    have hst : s = t := by simpa [Value.eqv, Value.same, Value.isNaN, hs, ht] using h.label
    rw [hs, ht, hst]
  exact ⟨hlabel, display_of_eqv hlimits.minLength hf.minLength hg.minLength,
    display_of_eqv hlimits.maxLength hf.maxLength hg.maxLength, boundText_of_eqv hlimits.min hf.min hg.min,
    boundText_of_eqv hlimits.max hf.max hg.max⟩

end Field

theorem Schema.writtenAs_of_declared {s t : Schema} (h : s.eqv t) (hs : ∀ f ∈ s.fields, f.Declared)
    (ht : ∀ f ∈ t.fields, f.Declared) : s.WrittenAs t := by
  have hall := (List.forall₂_and_left _ _).mpr ⟨hs, ((List.forall₂_and_left _ _).mpr ⟨ht, (fields_of_eqv h).flip⟩).flip⟩
  exact hall.imp fun f g ⟨hf, hg, he⟩ => hf.writtenAs hg he

/-! ## The cache -/

namespace ValidatorCache

inductive Call
  | get (s : Schema)
  | clear

/-- A call that fails leaves the cache as it is. -/
def after (c : ValidatorCache) : Call → ValidatorCache
  | .get s => match c.get s with
    | .ok (_, later) => later
    | .error _ => c
  | .clear => clear

/-- The cache after some calls, the first one of which comes first. -/
def afterAll (calls : List Call) : ValidatorCache := calls.foldl after {}

/-- The schemas that a cache has been asked for since it was last emptied. -/
def asked (calls : List Call) : List Schema :=
  calls.foldl (fun schemas call => match call with
    | .get s => schemas ++ [s]
    | .clear => []) []

variable {c : ValidatorCache} {calls : List Call} {s t : Schema} {v : Validator}

/-- Every entry is the validator of one of some schemas. -/
def Holds (c : ValidatorCache) (schemas : List Schema) : Prop :=
  ∀ e ∈ c.entries, e.1 ∈ schemas ∧ Validator.ofSchema e.1 = .ok e.2

theorem Holds.get {schemas : List Schema} (h : c.Holds schemas) {later : ValidatorCache}
    (hg : c.get s = .ok (v, later)) : later.Holds (schemas ++ [s]) := by
  have hmore : c.Holds (schemas ++ [s]) := fun e he => ⟨List.mem_append_left _ (h e he).1, (h e he).2⟩
  unfold ValidatorCache.get at hg
  split at hg
  · cases hg
  · split at hg
    · cases hg
      exact hmore
    · cases ho : Validator.ofSchema s with
      | error e => simp [ho, Except.map] at hg
      | ok w =>
          simp only [ho, Except.map, Except.ok.injEq, Prod.mk.injEq] at hg
          obtain ⟨-, rfl⟩ := hg
          intro e he
          rcases List.mem_append.mp he with he | he
          · exact hmore e he
          · obtain rfl := List.mem_singleton.mp he
            exact ⟨List.mem_append_right _ (List.mem_singleton_self s), ho⟩

theorem afterAll_append (call : Call) : afterAll (calls ++ [call]) = (afterAll calls).after call :=
  List.foldl_append

theorem afterAll_holds : (afterAll calls).Holds (asked calls) := by
  induction calls using List.reverseRecOn with
  | nil => exact fun e he => absurd he List.not_mem_nil
  | append_singleton calls call ih =>
      rw [afterAll_append, asked, List.foldl_append]
      cases call with
      | clear => exact fun e he => absurd he List.not_mem_nil
      | get s =>
          simp only [after]
          split
          · next hg => exact ih.get hg
          · exact fun e he => ⟨List.mem_append_left _ (ih e he).1, (ih e he).2⟩

theorem get_kept (hk : s.isKey) (hf : c.find? s = some v) : c.get s = .ok (v, c) := by
  simp [ValidatorCache.get, hk, hf]

theorem get_compiled (hk : s.isKey) (hf : c.find? s = none) :
    c.get s = (Validator.ofSchema s).map fun v => (v, ⟨c.entries ++ [(s, v)]⟩) := by
  simp [ValidatorCache.get, hk, hf]

theorem Holds.find {schemas : List Schema} (h : c.Holds schemas) (hf : c.find? s = some v) :
    ∃ t ∈ schemas, t.eqv s ∧ Validator.ofSchema t = .ok v := by
  obtain ⟨e, he, rfl⟩ := Option.map_eq_some_iff.mp hf
  obtain ⟨hm, hv⟩ := h e (List.mem_of_find?_eq_some he)
  exact ⟨e.1, hm, by simpa using List.find?_some he, hv⟩

/-- The validator of a schema and that of an equal one say the same if the schemas are written alike. -/
theorem validate_of_writtenAs {w : Validator} (hv : Validator.ofSchema t = .ok v) (hw : Validator.ofSchema s = .ok w)
    (h : List.Forall₂ Check.Alike v.checks w.checks) (ha : t.WrittenAs s) (values : Value) :
    v.validate values = w.validate values := by
  refine Validator.validate_of_written h ?_ values
  rw [Schema.WrittenAs, ← Validator.ofSchema_fields hv, ← Validator.ofSchema_fields hw, List.forall₂_map_left_iff,
    List.forall₂_map_right_iff] at ha
  exact ha

/-- A cache refuses a schema exactly when the schema has a defect, for that defect, and stays as it is. Otherwise it
gives the validator of the schema or that of an equal one it has been asked for, which has the same fields in order,
judges and converts all values alike, and gives the same messages if labels and limits are written alike, as they are
when they have the declared types. -/
theorem get_transparent (calls : List Call) (hk : s.isKey) :
    (∀ e, (afterAll calls).get s = .error e ↔ Validator.ofSchema s = .error e) ∧
      (∀ e, Validator.ofSchema s = .error e → afterAll (calls ++ [.get s]) = afterAll calls) ∧
      ∀ v later, (afterAll calls).get s = .ok (v, later) → ∃ w, Validator.ofSchema s = .ok w ∧ v.Alike w ∧
        (v = w ∨ ∃ t ∈ asked calls, t.eqv s ∧ Validator.ofSchema t = .ok v ∧
          (t.WrittenAs s ∨ (∀ f ∈ t.fields, f.Declared) ∧ (∀ f ∈ s.fields, f.Declared) →
            ∀ values, v.validate values = w.validate values)) := by
  cases hf : (afterAll calls).find? s with
  | none =>
      have hget := get_compiled hk hf
      cases ho : Validator.ofSchema s with
      | error e =>
          simp only [ho, Except.map] at hget
          refine ⟨fun d => by simp [hget], fun _ _ => ?_, fun v later h => ?_⟩
          · simp only [afterAll_append, after, hget]
          · cases hget.symm.trans h
      | ok w =>
          simp only [ho, Except.map] at hget
          refine ⟨fun d => ?_, fun _ h => ?_, fun v later h => ?_⟩
          · simp [hget]
          · cases h
          · cases hget.symm.trans h
            exact ⟨w, rfl, ⟨rfl, fun _ => rfl, fun _ => rfl, fun _ => rfl⟩, .inl rfl⟩
  | some v =>
      have hget := get_kept hk hf
      obtain ⟨t, ht, heqv, hv⟩ := afterAll_holds.find hf
      -- an equal schema was compiled, so this one can be compiled too
      obtain ⟨w, hw, hchecks⟩ : ∃ w, Validator.ofSchema s = .ok w ∧ List.Forall₂ Check.Alike v.checks w.checks := by
        rcases Validator.ofSchema_of_eqv heqv with ⟨e, he, -⟩ | ⟨v', w, hv', hw, hchecks⟩
        · cases he.symm.trans hv
        · cases hv'.symm.trans hv
          exact ⟨w, hw, hchecks⟩
      refine ⟨fun d => ?_, fun _ h => ?_, fun v' later h => ?_⟩
      · simp [hget, hw]
      · cases hw.symm.trans h
      · cases hget.symm.trans h
        refine ⟨w, hw, Validator.alike_of_checks hchecks, .inr ⟨t, ht, heqv, hv, fun hwritten => ?_⟩⟩
        have hwritten : t.WrittenAs s :=
          hwritten.elim id fun hdeclared => Schema.writtenAs_of_declared heqv hdeclared.1 hdeclared.2
        exact validate_of_writtenAs hv hw hchecks hwritten

end ValidatorCache

/-! ## A length as an integer and as a floating-point number -/

namespace Sample

/-- A form whose name has at least so many characters. -/
def lengthForm (length : Value) : Schema where
  id := "profile"
  title := .text "Profile"
  fields := [{ id := "name", type := .text, label := .text "Name", constraints := .text length .null .null }]

def twoForm : Schema := lengthForm (.int 2)

/-- The same length, with a decimal place. -/
def twoPointForm : Schema := lengthForm (.number (.float (.finite false (Decimal.twoTo 52) (-51))))

/-- What a validator of such a form says about a name of one character. -/
def shortName (v : Validator) : Option (List String) :=
  (v.validate (.record [("name", .text "A")])).toOption.map fun outcomes => outcomes.filterMap (·.2.message)

end Sample

namespace ValidatorCache

theorem get_transparent_lengths :
    (∀ e, (afterAll [.get Sample.twoForm]).get Sample.twoPointForm = .error e ↔
      Validator.ofSchema Sample.twoPointForm = .error e) ∧
    (∀ e, Validator.ofSchema Sample.twoPointForm = .error e →
      afterAll ([.get Sample.twoForm] ++ [.get Sample.twoPointForm]) = afterAll [.get Sample.twoForm]) ∧
    ∀ v later, (afterAll [.get Sample.twoForm]).get Sample.twoPointForm = .ok (v, later) →
      ∃ w, Validator.ofSchema Sample.twoPointForm = .ok w ∧ v.Alike w ∧
        (v = w ∨ ∃ t ∈ asked [.get Sample.twoForm], t.eqv Sample.twoPointForm ∧ Validator.ofSchema t = .ok v ∧
          (t.WrittenAs Sample.twoPointForm ∨
            (∀ f ∈ t.fields, f.Declared) ∧ (∀ f ∈ Sample.twoPointForm.fields, f.Declared) →
            ∀ values, v.validate values = w.validate values)) :=
  have key : Sample.twoPointForm.isKey := rfl
  get_transparent [.get Sample.twoForm] key

/-- A validator from a cache does not always say what a fresh one says. -/
theorem cached_length_message : ¬ ∀ (calls : List Call) (s : Schema), s.isKey → ∀ v later w,
    (afterAll calls).get s = .ok (v, later) → Validator.ofSchema s = .ok w →
      ∀ values, v.validate values = w.validate values := by
  intro h
  have hfresh : (Validator.ofSchema Sample.twoPointForm).toOption.map Sample.shortName =
      some (some ["Name must be at least 2.0 characters"]) := by decide +kernel
  have hcached : ((afterAll [.get Sample.twoForm]).get Sample.twoPointForm).toOption.map (Sample.shortName ·.1) =
      some (some ["Name must be at least 2 characters"]) := by decide +kernel
  cases hw : Validator.ofSchema Sample.twoPointForm with
  | error e => simp [hw, Except.toOption] at hfresh
  | ok w =>
      cases hg : (afterAll [.get Sample.twoForm]).get Sample.twoPointForm with
      | error e => simp [hg, Except.toOption] at hcached
      | ok r =>
          have hsame := h _ _ rfl r.1 r.2 w hg hw (.record [("name", .text "A")])
          simp only [hw, hg, Except.toOption, Option.map_some, Sample.shortName, hsame] at hfresh hcached
          have hmessages := hfresh.symm.trans hcached
          revert hmessages
          decide

end ValidatorCache
end Formwork
