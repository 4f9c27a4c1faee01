import Formwork.Proofs.Blockers
import Formwork.Proofs.FailedEdits

/-!
Which data a form with comparable limits can judge: all but those with an integer beyond all floating-point numbers in
a number field, which neither a check nor a conversion gets past.
-/

namespace Formwork

/-- A traversal whose steps break off for one reason breaks off for it. -/
theorem mapM_breaksOff {α β : Type} {f : α → Except Fault β} {l : List α} {e : Fault}
    (hone : ∀ a ∈ l, ∀ d, f a = .error d → d = e) (hsome : ∃ a ∈ l, f a = .error e) : l.mapM f = .error e := by
  cases hm : l.mapM f with
  | error d =>
      obtain ⟨a, ha, he⟩ := mapM_error hm
      rw [hone a ha d he]
  | ok r =>
      obtain ⟨a, ha, he⟩ := hsome
      have hall : ∀ a ∈ l, ∃ b, f a = .ok b :=
        ((List.forall₂_and_left l r).mp ((mapM_ok_iff.mp hm).imp fun a b h => ⟨⟨b, h⟩, h⟩)).1
      obtain ⟨b, hb⟩ := hall a ha
      cases he.symm.trans hb

namespace Check

variable {c : Check} {v : Value} {e : Fault}

/-- The value is one that the check cannot judge. -/
def Overflows (c : Check) (v : Value) : Prop := c.field.type = .number ∧ ∃ n, v = .int n ∧ Binary64.overflows n

theorem outcome_of_overflows (h : c.Overflows v) : c.outcome v = .error .tooLarge := by
  obtain ⟨ht, n, rfl, hn⟩ := h
  exact outcome_tooLarge ht hn

theorem coerce_of_overflows (h : c.Overflows v) : c.coerce v = .error .tooLarge := by
  obtain ⟨ht, n, rfl, hn⟩ := h
  have hnumber : (Value.int n).number? = .error .tooLarge := by
    rw [Value.int, Value.number?, Value.finite?, if_pos hn]
  have hblank : (Value.int n).isBlank = false := rfl
  simp [coerce, ht, hblank, hnumber, Except.map]

theorem overflows_of_outcome (hl : c.field.constraints.Comparable) (h : c.outcome v = .error e) :
    e = .tooLarge ∧ c.Overflows v := by
  obtain ⟨ht, he, hn⟩ := outcome_error hl h
  exact ⟨he, ht, hn⟩

theorem overflows_of_coerce (hl : c.field.constraints.Comparable) (h : c.coerce v = .error e) :
    e = .tooLarge ∧ c.Overflows v := by
  cases ho : c.outcome v with
  | ok o =>
      obtain ⟨u, hu⟩ := coerce_of_outcome ho
      cases hu.symm.trans h
  | error d =>
      have hover := (overflows_of_outcome hl ho).2
      cases (coerce_of_overflows hover).symm.trans h
      exact ⟨rfl, hover⟩

end Check

/-- A number field has an integer beyond all floating-point numbers in the data. -/
def Schema.Overflows (s : Schema) (data : Entries) : Prop :=
  ∃ f ∈ s.fields, f.type = .number ∧ ∃ n, data.get f.id = .int n ∧ Binary64.overflows n

namespace Validator

variable {s : Schema} {v : Validator} {data : Entries}

theorem step_get {β : Type} (c : Check) (g : Value → Except Fault β) :
    (do return (c.field.id, ← g (← (Value.map data).get c.field.id)) : Except Fault (String × β)) =
      (g (data.get c.field.id)).map fun b => (c.field.id, b) := by
  change (do return (c.field.id, ← g (data.get c.field.id)) : Except Fault (String × β)) = _
  cases g (data.get c.field.id) <;> rfl

/-- A traversal of the checks in which only one kind of data breaks off a step. -/
theorem traversal {β : Type} {g : Check → Value → Except Fault β} (hv : ofSchema s = .ok v)
    (hover : ∀ c ∈ v.checks, ∀ x, c.Overflows x → g c x = .error .tooLarge)
    (herror : ∀ c ∈ v.checks, ∀ x e, g c x = .error e → e = .tooLarge ∧ c.Overflows x) (data : Entries) :
    (¬s.Overflows data → ∃ found, (v.checks.mapM fun c => do
        return (c.field.id, ← g c (← (Value.map data).get c.field.id))) = .ok found ∧ found.map (·.1) = s.ids) ∧
      (s.Overflows data → (v.checks.mapM fun c => do
        return (c.field.id, ← g c (← (Value.map data).get c.field.id))) = .error .tooLarge) := by
  have hstep : ∀ c ∈ v.checks, ∀ e, (do return (c.field.id, ← g c (← (Value.map data).get c.field.id)) :
      Except Fault (String × β)) = .error e → e = .tooLarge ∧ c.Overflows (data.get c.field.id) := by
    intro c hc e he
    rw [step_get] at he
    cases hg : g c (data.get c.field.id) with
    | ok b => simp [hg, Except.map] at he
    | error d =>
        simp only [hg, Except.map, Except.error.injEq] at he
        exact he ▸ herror c hc _ d hg
  constructor
  · intro hno
    cases hm : v.checks.mapM (fun c => do return (c.field.id, ← g c (← (Value.map data).get c.field.id))) with
    | error e =>
        obtain ⟨c, hc, he⟩ := mapM_error hm
        obtain ⟨ht, hn⟩ := (hstep c hc e he).2
        exact absurd ⟨c.field, ofSchema_fields hv ▸ List.mem_map_of_mem hc, ht, hn⟩ hno
    | ok found =>
        refine ⟨found, rfl, ?_⟩
        rw [← ofSchema_ids hv, ← List.forall₂_eq_eq_eq, List.forall₂_map_left_iff, List.forall₂_map_right_iff]
        refine (mapM_ok_iff.mp hm).flip.imp fun p c hp => ?_
        rw [step_get] at hp
        cases hg : g c (data.get c.field.id) with
        | error d => simp [hg, Except.map] at hp
        | ok b =>
            simp only [hg, Except.map, Except.ok.injEq] at hp
            exact hp ▸ rfl
  · rintro ⟨f, hf, hfield⟩
    rw [← ofSchema_fields hv] at hf
    obtain ⟨c, hc, rfl⟩ := List.mem_map.mp hf
    refine mapM_breaksOff (fun a ha d hd => (hstep a ha d hd).1) ⟨c, hc, ?_⟩
    rw [step_get, hover c hc _ hfield]
    rfl

theorem checks_comparable (hv : ofSchema s = .ok v) (hl : ∀ f ∈ s.fields, f.constraints.Comparable) :
    ∀ c ∈ v.checks, c.field.constraints.Comparable := fun c hc =>
  hl c.field (ofSchema_fields hv ▸ List.mem_map_of_mem hc)

theorem validate_of_overflows (hv : ofSchema s = .ok v) (hl : ∀ f ∈ s.fields, f.constraints.Comparable)
    (h : s.Overflows data) : v.validate (.map data) = .error .tooLarge :=
  (traversal hv (fun c _ _ h => c.outcome_of_overflows h)
    (fun c hc _ _ h => Check.overflows_of_outcome (checks_comparable hv hl c hc) h) data).2 h

end Validator

/-! ## A form with one number field -/

namespace Sample

theorem ages_limits : ∀ f ∈ ages.fields, f.constraints.Comparable := by
  intro f hf
  obtain rfl := List.mem_singleton.mp (show f ∈ [ages.fields.head (by decide)] from hf)
  exact ⟨.inl rfl, .inl rfl, .inr ⟨_, rfl⟩, .inl rfl⟩

theorem ages_overflows {n : Int} (hn : Binary64.overflows n) : ages.Overflows [(.text "age", .int n)] :=
  ⟨_, List.mem_cons_self, rfl, n, rfl, hn⟩

theorem ages_not_overflows : ¬ages.Overflows [(.text "age", .text "5")] := by
  rintro ⟨f, hf, -, n, hn, -⟩
  obtain rfl := List.mem_singleton.mp (show f ∈ [ages.fields.head (by decide)] from hf)
  cases hn

end Sample

namespace Validator

end Validator
end Formwork
