import Formwork.Proofs.Requests

/-!
What is due about a field: a pause that will end, or a walk over the fields that will come to it. An event
about other fields leaves it alone.
-/

namespace Formwork

namespace World

/-- The pause of the whole form is under way. -/
def FormDue (w : World) : Prop :=
  ∃ e ∈ w.errands, e.job = .formTimer ∧ e.cancelled = false ∧ w.session.formTimer = some e.id

/-- The walk over the fields will come to the field and may make a request for it. -/
def Visits (w : World) (field : String) : Prop := .valued field ∈ w.visits ∨ .pausing field ∈ w.visits

def Due (w : World) (field : String) : Prop :=
  (∃ e ∈ w.errands, e.job = .fieldTimer field ∧ e.cancelled = false) ∨ w.FormDue ∨ w.Visits field

/-- What goes on about a field in one world goes on in the other. -/
structure Spares (w w' : World) (field : String) : Prop where
  errands : ∀ e ∈ w.errands, e.job.field? = some field → e.cancelled = false →
    ∃ x ∈ w'.errands, x.id = e.id ∧ x.job = e.job ∧ x.cancelled = false
  form : w.FormDue → w'.FormDue ∨ w'.Visits field
  visits : w.Visits field → w'.Visits field

variable {w w' u : World} {s : Stepped} {field : String} {a : Slot}

theorem mem_absorb_of_mem {e : Errand} (he : e ∈ w.errands) (hn : s.2.any (·.cancels e.id) = false) :
    e ∈ (w.absorb s).errands := by
  refine mem_absorb.mpr (.inl ⟨e, he, ?_⟩)
  rw [cancel, if_neg (by simp [hn])]

theorem mem_absorb_of_start {task : Nat} {job : Job} (h : .start task job ∈ s.2) :
    { id := task, job } ∈ (w.absorb s).errands :=
  mem_absorb.mpr (.inr ⟨task, job, h, rfl⟩)

theorem FormDue.absorb (h : w.FormDue) (hs : s.1.formTimer = w.session.formTimer)
    (hfx : ∀ e ∈ w.errands, s.2.any (·.cancels e.id) → e.job ≠ .formTimer) : (w.absorb s).FormDue := by
  obtain ⟨e, he, hj, hc, ht⟩ := h
  refine ⟨e, mem_absorb_of_mem he ?_, hj, hc, hs.trans ht⟩
  exact Bool.eq_false_iff.mpr fun hx => hfx e he hx hj

namespace Spares

theorem due (h : w.Spares w' field) (hd : w.Due field) : w'.Due field := by
  rcases hd with ⟨e, he, hj, hc⟩ | hd | hd
  · obtain ⟨x, hx, -, hj', hc'⟩ := h.errands e he (by rw [hj]; rfl) hc
    exact .inl ⟨x, hx, hj'.trans hj, hc'⟩
  · exact .inr (h.form hd)
  · exact .inr (.inr (h.visits hd))

theorem refl (w : World) (field : String) : w.Spares w field :=
  ⟨fun e he _ hc => ⟨e, he, rfl, rfl, hc⟩, .inl, fun h => h⟩

theorem trans (h : w.Spares w' field) (h' : w'.Spares u field) : w.Spares u field where
  errands e he hj hc := by
    obtain ⟨x, hx, hi, hj', hc'⟩ := h.errands e he hj hc
    obtain ⟨y, hy, hi', hj'', hc''⟩ := h'.errands x hx (hj' ▸ hj) hc'
    exact ⟨y, hy, hi'.trans hi, hj''.trans hj', hc''⟩
  form hf := (h.form hf).elim h'.form fun hv => .inr (h'.visits hv)
  visits hv := h'.visits (h.visits hv)

/-- A task ends that is cancelled, or that has nothing to do with the field. -/
theorem without {task : Nat} (h : ∀ e ∈ w.errands, e.id = task → e.cancelled = false →
    e.job.field? ≠ some field ∧ e.job ≠ .formTimer) : w.Spares (w.without task) field where
  errands e he hj hc := by
    refine ⟨e, mem_without.mpr ⟨he, fun hi => ?_⟩, rfl, rfl, hc⟩
    exact (h e he hi hc).1 hj
  form := by
    rintro ⟨e, he, hj, hc, ht⟩
    refine .inl ⟨e, mem_without.mpr ⟨he, fun hi => ?_⟩, hj, hc, ht⟩
    exact (h e he hi hc).2 hj
  visits hv := hv

theorem absorb (hfx : ∀ e ∈ w.errands, s.2.any (·.cancels e.id) → e.job.field? ≠ some field)
    (hf : w.FormDue → (w.absorb s).FormDue) : w.Spares (w.absorb s) field where
  errands e he hj hc := by
    refine ⟨e, mem_absorb_of_mem he ?_, rfl, rfl, hc⟩
    exact Bool.eq_false_iff.mpr fun hx => hfx e he hx hj
  form h := .inl (hf h)
  visits hv := hv

/-- The only tasks that are cancelled are those of another field. -/
theorem own (hw : w.Sound) (ha : a ∈ w.session.slots) (hne : a.field.id ≠ field)
    (hf : s.1.formTimer = w.session.formTimer)
    (hfx : ∀ k, s.2.any (·.cancels k) → a.timer = some k ∨ a.inflight = some k) :
    w.Spares (w.absorb s) field := by
  have hjob : ∀ e ∈ w.errands, s.2.any (·.cancels e.id) → e.job.field? = some a.field.id := by
    intro e he hx
    rcases hfx e.id hx with ht | ht
    · rw [(hw.slot a ha).timer_job e he ht]
      rfl
    · obtain ⟨token, v, hj⟩ := (hw.slot a ha).inflight_job e he ht
      rw [hj]
      rfl
  refine absorb (fun e he hx => ?_) fun h => h.absorb hf fun e he hx hj => ?_
  · rw [hjob e he hx]
    exact fun h => hne (Option.some.inj h)
  · have := hjob e he hx
    rw [hj] at this
    cases this

theorem markBegun (w : World) (task : Nat) (field : String) : w.Spares (w.markBegun task) field := by
  have key : ∀ e ∈ w.errands, e.cancelled = false →
      ∃ x ∈ (w.markBegun task).errands, x.id = e.id ∧ x.job = e.job ∧ x.cancelled = false := by
    intro e he hc
    refine ⟨_, List.mem_map_of_mem he, ?_⟩
    split <;> exact ⟨rfl, rfl, hc⟩
  refine ⟨fun e he _ hc => key e he hc, ?_, fun hv => hv⟩
  rintro ⟨e, he, hj, hc, ht⟩
  obtain ⟨x, hx, hi, hj', hc'⟩ := key e he hc
  exact .inl ⟨x, hx, hj'.trans hj, hc', hi ▸ ht⟩

/-- Nothing is cancelled. -/
theorem quiet (hf : s.1.formTimer = w.session.formTimer) (hfx : ∀ k, s.2.any (·.cancels k) = false)
    (field : String) : w.Spares (w.absorb s) field := by
  refine absorb (fun e _ hx => ?_) fun h => h.absorb hf fun e _ hx => ?_
  · rw [hfx] at hx
    cases hx
  · rw [hfx] at hx
    cases hx

end Spares

/-- The end of an evaluation takes nothing away that is due. -/
theorem Due.without {task : Nat} (h : w.Due field)
    (hn : ∀ e ∈ w.errands, e.id = task → e.job ≠ .fieldTimer field ∧ e.job ≠ .formTimer) :
    (w.without task).Due field := by
  rcases h with ⟨e, he, hj, hc⟩ | ⟨e, he, hj, hc, ht⟩ | hv
  · exact .inl ⟨e, mem_without.mpr ⟨he, fun hi => (hn e he hi).1 hj⟩, hj, hc⟩
  · exact .inr (.inl ⟨e, mem_without.mpr ⟨he, fun hi => (hn e he hi).2 hj⟩, hj, hc, ht⟩)
  · exact .inr (.inr hv)

end World
end Formwork
