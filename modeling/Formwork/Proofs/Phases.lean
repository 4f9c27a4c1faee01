import Formwork.Proofs.Runs
import Formwork.Proofs.Settings

/-!
What the phase of a field tells in every world, and what the evaluator is never asked.
-/

namespace Formwork

namespace World

variable {w w' : World} {event : Event} {fx : List Effect}

/-! ## Forms without advice -/

/-- Nothing is going on, and nothing is about to. -/
structure Silent (w : World) : Prop where
  errands : w.errands = []
  idle : ∀ c ∈ w.session.slots, c.phase = .idle
  visits : ∀ id, .valued id ∉ w.visits

namespace Silent

variable {s : Stepped} {a b : Slot}

theorem absorb (h : w.Silent) (hi : ∀ c ∈ s.1.slots, c.phase = .idle) (hs : s.2.filterMap Effect.started? = []) :
    (w.absorb s).Silent where
  errands := by
    rw [World.absorb, h.errands, hs]
    rfl
  idle := hi
  visits := h.visits

theorem putSlot (h : w.Silent) (hb : b.phase = .idle) : ∀ c ∈ (w.session.putSlot b).slots, c.phase = .idle := by
  intro c hc
  rcases Session.mem_putSlot hc with rfl | ⟨hc, -⟩
  · exact hb
  · exact h.idle c hc

theorem edited (h : w.Silent) (hadv : w.session.schema.advisoryEnabled = false) {value : Value}
    (ha : w.session.slot? a.field.id = some a) (he : Session.Edited w.session a value s) :
    (w.absorb s).Silent := by
  have hi := h.idle a (Session.slot?_mem ha)
  cases he with
  | broken => exact h.absorb (h.putSlot hi) rfl
  | cleared =>
      refine h.absorb (h.putSlot rfl) ?_
      rw [List.append_assoc, Sound.started_cancelOf, Sound.started_cancelOf]
      rfl
  | unadvised =>
      refine h.absorb (h.putSlot hi) ?_
      rw [Sound.started_cancelOf]
      rfl
  | pausedAlone _ _ _ ha | pausedTogether _ _ _ ha => rw [hadv] at ha; cases ha

theorem visited (h : w.Silent) {v : Visit} {rest : List Visit} (hv : w.visits = v :: rest) :
    (World.absorb { w with visits := rest } (v.step w.session)).Silent := by
  have hr : World.Silent { w with visits := rest } :=
    ⟨h.errands, h.idle, fun id hm => h.visits id (hv ▸ List.mem_cons_of_mem v hm)⟩
  cases v with
  | valued id => exact absurd (hv ▸ List.mem_cons_self) (h.visits id)
  | pausing id =>
      rcases w.session.dispatchIfPausing_cases id with ⟨he, -⟩ | ⟨a, ha, hp, -⟩
      · rw [Visit.step, he]
        exact hr.absorb h.idle rfl
      · rw [h.idle a (Session.slot?_mem ha)] at hp
        cases hp
  | outcome id o =>
      rcases w.session.recordOutcome_cases id o with he | ⟨a, ha, he⟩ <;> rw [Visit.step, he]
      · exact hr.absorb h.idle rfl
      · exact hr.absorb (h.putSlot (h.idle a (Session.slot?_mem ha))) rfl

end Silent

theorem Step.silent (hs : w.Step event fx w') (hadv : w.session.schema.advisoryEnabled = false)
    (h : w.Silent) : w'.Silent := by
  cases hs with
  | edit id value =>
      rcases w.session.edit_cases id value with ⟨he, -⟩ | ⟨a, ha, -, he⟩
      · exact he ▸ h.absorb h.idle rfl
      · exact h.edited hadv (Session.slot?_id ha ▸ ha) he
  | flush =>
      have hp : World.Silent { w with visits := w.session.ids.map .pausing } := ⟨h.errands, h.idle, by simp⟩
      refine hp.absorb h.idle ?_
      simpa [Session.beginFlush] using Sound.started_cancelOf w.session.formTimer []
  | validateAll outcomes => exact ⟨h.errands, h.idle, by simpa using h.visits⟩
  | validateNone => exact h
  | close =>
      refine h.absorb h.idle ?_
      simp [Session.close, List.filterMap_map, Function.comp_def, Effect.started?]
  | visit v rest hv => exact h.visited hv
  | «begin» e _ he | fieldPauseOver e _ _ he | formPauseOver e _ he | answer e _ _ _ _ _ he | vanish e _ he =>
      rw [h.errands] at he
      cases he
  | otherTask => exact ⟨h.errands, h.idle, h.visits⟩

/-- An evaluation has its first turn: the evaluator is called with the value of a field. -/
def Transition.Calls (t : Transition) (field : String) (value : Value) : Prop :=
  ∃ e ∈ t.before.errands, ∃ token, e.job = .evaluation field token value ∧ t.event = .begin e.id

end World

namespace History

variable {ts : List World.Transition} {w : World}

theorem silent (h : History ts w) (hadv : w.session.schema.advisoryEnabled = false) : w.Silent := by
  induction h with
  | opened hs =>
      obtain ⟨-, -, hf⟩ := hs.fresh
      exact ⟨rfl, fun c hc => (hf.slots c hc).phase, by simp⟩
  | step _ hs ih =>
      rw [hs.alike.advisoryEnabled] at hadv
      exact hs.silent hadv (ih hadv)

/-- Whatever happens, the phase of every field tells what its advisory outcomes are, the last result is
never pending, and the evaluator is called only for values, and only if the form has advice. -/
theorem phases_coherent (h : History ts w) :
    (∀ c ∈ w.session.slots, c.Coherent ∧ c.resolved.status ≠ .pending) ∧
      ∀ t ∈ ts, ∀ field value, t.Calls field value →
        value.isBlank = false ∧ w.session.schema.advisoryEnabled := by
  constructor
  · intro c hc
    have hco := (h.sound.slot c hc).coherent
    refine ⟨hco, fun hp => ?_⟩
    rcases hco.final with hr | hr <;> rw [hr] at hp <;> cases hp
  · rintro t ht field value ⟨e, he, token, hj, -⟩
    obtain ⟨us, vs, rfl⟩ := List.append_of_mem ht
    obtain ⟨hb, -, -⟩ := h.prefix_step
    refine ⟨hb.sound.valued e he field token value hj, ?_⟩
    rw [(h.alike ht).advisoryEnabled]
    by_contra hadv
    rw [(hb.silent (Bool.eq_false_iff.mpr hadv)).errands] at he
    cases he

theorem phases_coherent_sample :
    Sample.run.2.session.slots.map (·.phase) = [.resolved, .resolved] ∧
      (∀ c ∈ Sample.run.2.session.slots, c.Coherent ∧ c.resolved.status ≠ .pending) ∧
      ∀ t ∈ Sample.run.1, ∀ field value, t.Calls field value →
        value.isBlank = false ∧ Sample.run.2.session.schema.advisoryEnabled :=
  ⟨by decide +kernel, phases_coherent Sample.history⟩

end History
end Formwork
