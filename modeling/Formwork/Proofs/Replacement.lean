import Formwork.Proofs.Bookkeeping

/-!
A step that puts one slot in place and starts at most one job keeps the world sound, as long as the new slot
knows of its tasks.
-/

namespace Formwork

/-- The session puts the slot `b` in place and starts at most one job. -/
structure World.Touch (w : World) (b : Slot) (job? : Option Job) (s : Stepped) : Prop where
  slots : s.1.slots = (w.session.putSlot b).slots
  validator : s.1.validator = w.session.validator
  next : s.1.nextTask = w.session.nextTask + job?.toList.length
  started : s.2.filterMap Effect.started? =
    (job?.map fun job => ({ id := w.session.nextTask, job } : Errand)).toList

/-- The slot `b` may take the place of `a`: its tasks are old or new ones, and no timer is lost. -/
structure World.Replaces (w : World) (a b : Slot) (job? : Option Job) (effects : List Effect) : Prop where
  field : b.field = a.field
  coherent : b.Coherent
  timed : b.timer.isSome → b.value.isBlank = false
  timer : ∀ k, b.timer = some k →
    a.timer = some k ∨ k = w.session.nextTask ∧ job? = some (.fieldTimer a.field.id)
  inflight : ∀ k, b.inflight = some k → a.inflight = some k ∨
    k = w.session.nextTask ∧ ∃ token v, job? = some (.evaluation a.field.id token v)
  ticking : ∀ e ∈ w.errands, a.timer = some e.id → effects.any (·.cancels e.id) ∨ b.timer = some e.id
  new_timer : ∀ f, job? = some (.fieldTimer f) → b.timer = some w.session.nextTask
  token_le : a.token ≤ b.token
  new_token : ∀ f token v, job? = some (.evaluation f token v) → token ≤ b.token

namespace World.Touch

variable {w : World} {b : Slot} {job? : Option Job} {s : Stepped}

theorem mem (t : w.Touch b job? s) {x : Errand} (h : x ∈ (w.absorb s).errands) :
    (∃ e ∈ w.errands, World.cancel s.2 e = x) ∨
      ∃ job, job? = some job ∧ x = { id := w.session.nextTask, job } := by
  rw [absorb, List.mem_append, List.mem_map, t.started] at h
  refine h.imp (fun h => h) fun h => ?_
  rw [Option.mem_toList, Option.map_eq_some_iff] at h
  obtain ⟨job, hj, rfl⟩ := h
  exact ⟨job, hj, rfl⟩

theorem next_le (t : w.Touch b job? s) : w.session.nextTask ≤ s.1.nextTask := by
  rw [t.next]
  exact Nat.le_add_right _ _

theorem next_lt (t : w.Touch b job? s) {job : Job} (h : job? = some job) :
    w.session.nextTask < s.1.nextTask := by
  rw [t.next, h]
  exact Nat.lt_succ_self _

theorem distinct (t : w.Touch b job? s) (h : w.Sound) : ((w.absorb s).errands.map (·.id)).Nodup := by
  have hi : (w.errands.map (World.cancel s.2)).map (·.id) = w.errands.map (·.id) := by
    rw [List.map_map]
    exact List.map_congr_left fun e _ => cancel_id s.2 e
  rw [absorb, List.map_append, hi, t.started]
  cases job? with
  | none => simpa using h.distinct
  | some job =>
      refine List.nodup_append.mpr ⟨h.distinct, List.nodup_singleton _, ?_⟩
      intro k hk j hj he
      obtain ⟨e, hm, rfl⟩ := List.mem_map.mp hk
      rw [List.mem_singleton.mp hj] at he
      exact absurd (h.lt e hm) (he ▸ Nat.lt_irrefl _)

theorem slot_sound (t : w.Touch b job? s) (h : w.Sound) {a : Slot}
    (ha : a.Sound w.errands w.session.nextTask) (r : w.Replaces a b job? s.2) :
    b.Sound (w.absorb s).errands s.1.nextTask where
  coherent := r.coherent
  timed := r.timed
  timer_lt k hk := by
    rcases r.timer k hk with hk | ⟨rfl, hj⟩
    · exact Nat.lt_of_lt_of_le (ha.timer_lt k hk) t.next_le
    · exact t.next_lt hj
  inflight_lt k hk := by
    rcases r.inflight k hk with hk | ⟨rfl, token, v, hj⟩
    · exact Nat.lt_of_lt_of_le (ha.inflight_lt k hk) t.next_le
    · exact t.next_lt hj
  timer_job x hx hk := by
    rw [r.field]
    rcases t.mem hx with ⟨e, he, rfl⟩ | ⟨job, hj, rfl⟩ <;> rcases r.timer _ hk with hk | ⟨hk, hj'⟩
    · rw [cancel_id] at hk
      exact cancel_job s.2 e ▸ ha.timer_job e he hk
    · rw [cancel_id] at hk
      exact absurd (h.lt e he) (hk ▸ Nat.lt_irrefl _)
    · exact absurd (ha.timer_lt _ hk) (Nat.lt_irrefl _)
    · exact Option.some.inj (hj.symm.trans hj')
  inflight_job x hx hk := by
    rw [r.field]
    rcases t.mem hx with ⟨e, he, rfl⟩ | ⟨job, hj, rfl⟩ <;> rcases r.inflight _ hk with hk | ⟨hk, token, v, hj'⟩
    · rw [cancel_id] at hk
      exact cancel_job s.2 e ▸ ha.inflight_job e he hk
    · rw [cancel_id] at hk
      exact absurd (h.lt e he) (hk ▸ Nat.lt_irrefl _)
    · exact absurd (ha.inflight_lt _ hk) (Nat.lt_irrefl _)
    · exact ⟨token, v, Option.some.inj (hj.symm.trans hj')⟩
  ticking x hx hj hn := by
    rw [r.field] at hj
    rcases t.mem hx with ⟨e, he, rfl⟩ | ⟨job, hj', rfl⟩
    · rw [cancel_job] at hj
      rw [cancel_cancelled, Bool.or_eq_false_iff] at hn
      rw [cancel_id]
      exact (r.ticking e he (ha.ticking e he hj hn.1)).resolve_left (Bool.eq_false_iff.mp hn.2)
    · obtain rfl : job = .fieldTimer a.field.id := hj
      exact r.new_timer _ hj'
  token_le x hx token v hj := by
    rw [r.field] at hj
    rcases t.mem hx with ⟨e, he, rfl⟩ | ⟨job, hj', rfl⟩
    · exact Nat.le_trans (ha.token_le e he token v (cancel_job s.2 e ▸ hj)) r.token_le
    · obtain rfl : job = .evaluation a.field.id token v := hj
      exact r.new_token _ token v hj'

/-- To keep a world sound it is enough to look at the slot that is put in place. -/
theorem sound (t : w.Touch b job? s) (h : w.Sound)
    (hb : b.Sound (w.absorb s).errands s.1.nextTask)
    (hjob : ∀ job, job? = some job → ∀ f, job.field? = some f → f = b.field.id)
    (hform : s.1.formTimer = w.session.formTimer ∧ job? ≠ some .formTimer ∨
      s.1.formTimer = some w.session.nextTask ∧ job? = some .formTimer)
    (heval : ∀ token v, job? = some (.evaluation b.field.id token v) → v.isBlank = false ∧
      ∀ e ∈ w.errands, ∀ v', e.job ≠ .evaluation b.field.id token v') : (w.absorb s).Sound where
  slot c hc := by
    change c ∈ s.1.slots at hc
    rw [t.slots] at hc
    rcases Session.mem_putSlot hc with rfl | ⟨hm, hne⟩
    · exact hb
    · refine (h.slot c hm).frame t.next_le fun x hx => ?_
      rcases t.mem hx with ⟨e, he, rfl⟩ | ⟨job, hj, rfl⟩
      · exact .inl ⟨e, he, cancel_later s.2 e⟩
      · exact .inr ⟨Nat.le_refl _, fun hf => hne (hjob job hj _ hf)⟩
  lt x hx := by
    rcases t.mem hx with ⟨e, he, rfl⟩ | ⟨job, hj, rfl⟩
    · rw [cancel_id]
      exact Nat.lt_of_lt_of_le (h.lt e he) t.next_le
    · exact t.next_lt hj
  distinct := t.distinct h
  form_lt k hk := by
    rcases hform with ⟨hf, -⟩ | ⟨hf, hj⟩
    · exact Nat.lt_of_lt_of_le (h.form_lt k (hf ▸ hk)) t.next_le
    · cases hf.symm.trans hk
      exact t.next_lt hj
  form_job x hx hk := by
    change s.1.formTimer = some x.id at hk
    rcases t.mem hx with ⟨e, he, rfl⟩ | ⟨job, hj, rfl⟩
    · rw [cancel_id] at hk
      rw [cancel_job]
      rcases hform with ⟨hf, -⟩ | ⟨hf, -⟩
      · exact h.form_job e he (hf ▸ hk)
      · have := h.lt e he
        rw [hf, Option.some.injEq] at hk
        omega
    · rcases hform with ⟨hf, -⟩ | ⟨-, hf⟩
      · exact absurd (h.form_lt _ (hf ▸ hk)) (Nat.lt_irrefl _)
      · exact Option.some.inj (hj.symm.trans hf)
  valued x hx id token v he := by
    rcases t.mem hx with ⟨e, hm, rfl⟩ | ⟨job, hj, rfl⟩
    · exact h.valued e hm id token v (cancel_job s.2 e ▸ he)
    · obtain rfl : job = .evaluation id token v := he
      obtain rfl := hjob _ hj id rfl
      exact (heval token v hj).1
  token_inj x hx y hy id token v v' hv hv' := by
    rcases t.mem hx with ⟨e, hm, rfl⟩ | ⟨job, hj, rfl⟩ <;> rcases t.mem hy with ⟨f, hn, rfl⟩ | ⟨job', hj', rfl⟩
    · rw [cancel_id, cancel_id]
      exact h.token_inj e hm f hn id token v v' (cancel_job s.2 e ▸ hv) (cancel_job s.2 f ▸ hv')
    · obtain rfl : job' = .evaluation id token v' := hv'
      obtain rfl := hjob _ hj' id rfl
      exact absurd (cancel_job s.2 e ▸ hv) ((heval token v' hj').2 e hm v)
    · obtain rfl : job = .evaluation id token v := hv
      obtain rfl := hjob _ hj id rfl
      exact absurd (cancel_job s.2 f ▸ hv') ((heval token v hj).2 f hn v')
    · rfl
  compiled := by
    obtain ⟨schema, hs, hi⟩ := h.compiled
    refine ⟨schema, t.validator ▸ hs, ?_⟩
    rw [← hi, ← Session.ids_putSlot w.session b, Session.ids, Session.ids]
    exact congrArg _ t.slots

end World.Touch
end Formwork
