import Formwork.Proofs.Coherence
import Formwork.Proofs.Interleaving

/-!
What holds in every world: the numbers of tasks and of requests are kept straight, every timer that may
still go off is known to its field, and every field is coherent.
-/

namespace Formwork

namespace Job

def field? : Job → Option String
  | fieldTimer f => some f
  | formTimer => none
  | evaluation f _ _ => some f

end Job

namespace World

/-! ## Errands after a step -/

theorem cancel_id (fx : List Effect) (e : Errand) : (cancel fx e).id = e.id := by
  unfold cancel; split <;> rfl

theorem cancel_job (fx : List Effect) (e : Errand) : (cancel fx e).job = e.job := by
  unfold cancel; split <;> rfl

theorem cancel_cancelled (fx : List Effect) (e : Errand) :
    (cancel fx e).cancelled = (e.cancelled || fx.any (·.cancels e.id)) := by
  unfold cancel; split <;> simp_all

theorem mem_started {fx : List Effect} {x : Errand} :
    x ∈ fx.filterMap Effect.started? ↔ ∃ task job, .start task job ∈ fx ∧ x = { id := task, job } := by
  rw [List.mem_filterMap]
  constructor
  · rintro ⟨f, hf, he⟩
    cases f with
    | start task job => exact ⟨task, job, hf, (Option.some.inj he).symm⟩
    | cancel | «show» => cases he
  · rintro ⟨task, job, hf, rfl⟩
    exact ⟨_, hf, rfl⟩

theorem mem_absorb {w : World} {s : Stepped} {x : Errand} :
    x ∈ (w.absorb s).errands ↔ (∃ e ∈ w.errands, cancel s.2 e = x) ∨
      ∃ task job, .start task job ∈ s.2 ∧ x = { id := task, job } := by
  rw [absorb, List.mem_append, List.mem_map, mem_started]

theorem absorb_nil (w : World) : w.absorb (w.session, []) = w := by
  have hc : cancel [] = id := by
    funext e
    simp [cancel]
  simp [absorb, hc]

theorem mem_without {w : World} {task : Nat} {x : Errand} :
    x ∈ (w.without task).errands ↔ x ∈ w.errands ∧ x.id ≠ task := by
  simp [without]

@[simp] theorem any_cancels_cancelOf (t : Option Nat) (k : Nat) :
    (Session.cancelOf t).any (·.cancels k) = decide (t = some k) := by
  cases t <;> simp [Session.cancelOf, Effect.cancels]

@[simp] theorem start_mem_cancelOf (t : Option Nat) (k : Nat) (j : Job) :
    Effect.start k j ∈ Session.cancelOf t ↔ False := by
  cases t <;> simp [Session.cancelOf]

end World

/-! ## Soundness of a world -/

/-- The task is the same one, perhaps further on. -/
structure Errand.Later (e x : Errand) : Prop where
  id : x.id = e.id
  job : x.job = e.job
  cancelled : x.cancelled = false → e.cancelled = false

theorem Errand.Later.refl (e : Errand) : e.Later e := ⟨rfl, rfl, fun h => h⟩

theorem World.cancel_later (fx : List Effect) (e : Errand) : e.Later (World.cancel fx e) where
  id := World.cancel_id fx e
  job := World.cancel_job fx e
  cancelled h := by
    rw [World.cancel_cancelled, Bool.or_eq_false_iff] at h
    exact h.1

/-- The slot agrees with the errands that concern its field. -/
structure Slot.Sound (errands : List Errand) (next : Nat) (c : Slot) : Prop where
  coherent : c.Coherent
  timed : c.timer.isSome → c.value.isBlank = false
  timer_lt : ∀ k, c.timer = some k → k < next
  inflight_lt : ∀ k, c.inflight = some k → k < next
  timer_job : ∀ e ∈ errands, c.timer = some e.id → e.job = .fieldTimer c.field.id
  inflight_job : ∀ e ∈ errands, c.inflight = some e.id →
    ∃ token v, e.job = .evaluation c.field.id token v
  ticking : ∀ e ∈ errands, e.job = .fieldTimer c.field.id → e.cancelled = false → c.timer = some e.id
  token_le : ∀ e ∈ errands, ∀ token v, e.job = .evaluation c.field.id token v → token ≤ c.token

/-- A slot is not concerned by new errands of other fields. -/
theorem Slot.Sound.frame {es es' : List Errand} {n n' : Nat} {c : Slot} (h : c.Sound es n) (hn : n ≤ n')
    (hx : ∀ x ∈ es', (∃ e ∈ es, e.Later x) ∨ n ≤ x.id ∧ x.job.field? ≠ some c.field.id) :
    c.Sound es' n' where
  coherent := h.coherent
  timed := h.timed
  timer_lt k hk := Nat.lt_of_lt_of_le (h.timer_lt k hk) hn
  inflight_lt k hk := Nat.lt_of_lt_of_le (h.inflight_lt k hk) hn
  timer_job x hm ht := by
    rcases hx x hm with ⟨e, he, hl⟩ | ⟨hlt, -⟩
    · exact hl.job ▸ h.timer_job e he (hl.id ▸ ht)
    · exact absurd (h.timer_lt _ ht) (Nat.not_lt.mpr hlt)
  inflight_job x hm ht := by
    rcases hx x hm with ⟨e, he, hl⟩ | ⟨hlt, -⟩
    · exact hl.job ▸ h.inflight_job e he (hl.id ▸ ht)
    · exact absurd (h.inflight_lt _ ht) (Nat.not_lt.mpr hlt)
  ticking x hm hj hc := by
    rcases hx x hm with ⟨e, he, hl⟩ | ⟨-, hne⟩
    · exact hl.id ▸ h.ticking e he (hl.job ▸ hj) (hl.cancelled hc)
    · exact absurd (congrArg Job.field? hj) hne
  token_le x hm token v hj := by
    rcases hx x hm with ⟨e, he, hl⟩ | ⟨-, hne⟩
    · exact h.token_le e he token v (hl.job ▸ hj)
    · exact absurd (congrArg Job.field? hj) hne

structure World.Sound (w : World) : Prop where
  slot : ∀ c ∈ w.session.slots, c.Sound w.errands w.session.nextTask
  lt : ∀ e ∈ w.errands, e.id < w.session.nextTask
  distinct : (w.errands.map (·.id)).Nodup
  form_lt : ∀ k, w.session.formTimer = some k → k < w.session.nextTask
  form_job : ∀ e ∈ w.errands, w.session.formTimer = some e.id → e.job = .formTimer
  valued : ∀ e ∈ w.errands, ∀ id token v, e.job = .evaluation id token v → v.isBlank = false
  token_inj : ∀ e ∈ w.errands, ∀ x ∈ w.errands, ∀ id token v v', e.job = .evaluation id token v →
    x.job = .evaluation id token v' → e.id = x.id
  compiled : ∃ schema, Validator.ofSchema schema = .ok w.session.validator ∧ w.session.ids = schema.ids

namespace World.Sound

variable {w : World}

theorem eq_of_id (h : w.Sound) {e x : Errand} (he : e ∈ w.errands) (hx : x ∈ w.errands) (hi : e.id = x.id) :
    e = x :=
  List.inj_on_of_nodup_map h.distinct he hx hi

theorem slot?_of_mem (h : w.Sound) {c : Slot} (hc : c ∈ w.session.slots) :
    w.session.slot? c.field.id = some c := by
  obtain ⟨schema, hv, hi⟩ := h.compiled
  exact Session.slot?_of_nodup (hi ▸ Validator.ofSchema_nodup hv) hc

/-- Errands may end or go on, and the timer of the form may be forgotten, as long as nothing new starts. -/
theorem later (h : w.Sound) {w' : World} (hs : w'.session.slots = w.session.slots)
    (hv : w'.session.validator = w.session.validator) (hn : w.session.nextTask ≤ w'.session.nextTask)
    (hf : ∀ k, w'.session.formTimer = some k → w.session.formTimer = some k)
    (hx : ∀ x ∈ w'.errands, ∃ e ∈ w.errands, e.Later x) (hd : (w'.errands.map (·.id)).Nodup) : w'.Sound where
  slot c hc := (h.slot c (hs ▸ hc)).frame hn fun x hm => .inl (hx x hm)
  lt x hm := by
    obtain ⟨e, he, hl⟩ := hx x hm
    exact hl.id ▸ Nat.lt_of_lt_of_le (h.lt e he) hn
  distinct := hd
  form_lt k hk := Nat.lt_of_lt_of_le (h.form_lt k (hf k hk)) hn
  form_job x hm ht := by
    obtain ⟨e, he, hl⟩ := hx x hm
    exact hl.job ▸ h.form_job e he (hl.id ▸ hf _ ht)
  valued x hm id token v hj := by
    obtain ⟨e, he, hl⟩ := hx x hm
    exact h.valued e he id token v (hl.job ▸ hj)
  token_inj x hm y hn id token v v' hj hk := by
    obtain ⟨e, he, hl⟩ := hx x hm
    obtain ⟨f, hf, hr⟩ := hx y hn
    rw [hl.id, hr.id]
    exact h.token_inj e he f hf id token v v' (hl.job ▸ hj) (hr.job ▸ hk)
  compiled := by
    obtain ⟨schema, hc, hi⟩ := h.compiled
    exact ⟨schema, hv ▸ hc, hi ▸ by rw [Session.ids, Session.ids, hs]⟩

theorem without (h : w.Sound) (task : Nat) : (w.without task).Sound :=
  h.later rfl rfl (Nat.le_refl _) (fun _ hk => hk) (fun x hm => ⟨x, (mem_without.mp hm).1, .refl x⟩)
    (h.distinct.sublist (List.filter_sublist.map _))

theorem with_visits (h : w.Sound) (visits : List Visit) : World.Sound { w with visits } :=
  h.later rfl rfl (Nat.le_refl _) (fun _ hk => hk) (fun x hm => ⟨x, hm, .refl x⟩) h.distinct

theorem markBegun (h : w.Sound) (task : Nat) : (w.markBegun task).Sound := by
  refine h.later rfl rfl (Nat.le_refl _) (fun _ hk => hk) (fun x hm => ?_) ?_
  · obtain ⟨e, he, rfl⟩ := List.mem_map.mp hm
    refine ⟨e, he, ?_⟩
    split
    · exact ⟨rfl, rfl, fun h => h⟩
    · exact .refl e
  · have hi : (w.markBegun task).errands.map (·.id) = w.errands.map (·.id) := by
      rw [World.markBegun, List.map_map]
      refine List.map_congr_left fun e _ => ?_
      simp only [Function.comp_apply]
      split <;> rfl
    exact hi ▸ h.distinct

/-- A step that starts nothing and leaves the slots alone. -/
theorem cancelled (h : w.Sound) {s : Stepped} (hs : s.1.slots = w.session.slots)
    (hv : s.1.validator = w.session.validator) (hn : s.1.nextTask = w.session.nextTask)
    (hf : ∀ k, s.1.formTimer = some k → w.session.formTimer = some k)
    (hfx : s.2.filterMap Effect.started? = []) : (w.absorb s).Sound := by
  refine h.later hs hv (Nat.le_of_eq hn.symm) hf (fun x hm => ?_) ?_
  · rw [absorb, hfx, List.append_nil] at hm
    obtain ⟨e, he, rfl⟩ := List.mem_map.mp hm
    exact ⟨e, he, cancel_later s.2 e⟩
  · rw [absorb, hfx, List.append_nil, List.map_map]
    exact (List.map_congr_left fun e _ => cancel_id s.2 e) ▸ h.distinct

end World.Sound

end Formwork
