import Formwork.Proofs.Interleaving

/-!
What a step of a session asks for: first that tasks which the session knows of are cancelled, then that at most
one job is started, under the next number, and last that states are shown.
-/

namespace Formwork

namespace Session

variable {s : Session} {a b : Slot} {id : String} {k : Nat} {r : Stepped}

theorem mem_tasks : k ∈ s.tasks ↔
    s.formTimer = some k ∨ ∃ c ∈ s.slots, c.timer = some k ∨ c.inflight = some k := by
  simp [tasks, List.mem_flatMap]

/-- A step that cancels tasks, starts a job and shows states. -/
structure Asks (s : Session) (r : Stepped) (cancels : List Nat) (job? : Option Job) (shows : List FieldState) :
    Prop where
  effects : r.2 = cancels.map .cancel ++ ((job?.map (Effect.start s.nextTask)).toList ++ shows.map .show)
  known : ∀ k ∈ cancels, k ∈ s.tasks
  next : r.1.nextTask = s.nextTask + job?.toList.length
  tracked : ∀ k ∈ r.1.tasks, k ∈ s.tasks ∨ k = s.nextTask ∧ job?.isSome

/-- The step asks for something of that kind. -/
def Modest (s : Session) (r : Stepped) : Prop := ∃ cancels job? shows, s.Asks r cancels job? shows

theorem modest_nothing (s : Session) : s.Modest (s, []) :=
  ⟨[], none, [], rfl, by simp, rfl, fun _ hk => .inl hk⟩

/-- The step puts a slot in place whose tasks are those of the old slot, or the new job. -/
theorem modest_put (ha : a ∈ s.slots) (cancels : List Nat) (job? : Option Job) (shows : List FieldState)
    (heffects : r.2 = cancels.map .cancel ++ ((job?.map (Effect.start s.nextTask)).toList ++ shows.map .show))
    (hslots : r.1.slots = (s.putSlot b).slots) (hnext : r.1.nextTask = s.nextTask + job?.toList.length)
    (hcancels : ∀ k ∈ cancels, s.formTimer = some k ∨ a.timer = some k ∨ a.inflight = some k)
    (hform : ∀ k, r.1.formTimer = some k → s.formTimer = some k ∨ k = s.nextTask ∧ job?.isSome)
    (htimer : ∀ k, b.timer = some k → a.timer = some k ∨ k = s.nextTask ∧ job?.isSome)
    (hinflight : ∀ k, b.inflight = some k → a.inflight = some k ∨ k = s.nextTask ∧ job?.isSome) : s.Modest r := by
  refine ⟨cancels, job?, shows, heffects, fun k hk => ?_, hnext, fun k hk => ?_⟩
  · exact mem_tasks.mpr ((hcancels k hk).imp id fun h => ⟨a, ha, h⟩)
  · rcases mem_tasks.mp hk with hf | ⟨c, hc, hk⟩
    · exact (hform k hf).imp (fun hf => mem_tasks.mpr (.inl hf)) id
    · rw [hslots] at hc
      rcases mem_putSlot hc with rfl | ⟨hc, -⟩
      · rcases hk with hk | hk
        · exact (htimer k hk).imp (fun ht => mem_tasks.mpr (.inr ⟨a, ha, .inl ht⟩)) id
        · exact (hinflight k hk).imp (fun hi => mem_tasks.mpr (.inr ⟨a, ha, .inr hi⟩)) id
      · exact .inl (mem_tasks.mpr (.inr ⟨c, hc, hk⟩))

theorem Edited.modest {value : Value} (ha : a ∈ s.slots) (h : Edited s a value r) : s.Modest r := by
  cases h with
  | broken e he =>
      exact modest_put ha [] none [] rfl rfl rfl (by simp) (fun _ hk => .inl hk) (fun _ hk => .inl hk)
        fun _ hk => .inl hk
  | cleared o ho hb =>
      refine modest_put ha (a.timer.toList ++ a.inflight.toList) none [(a.cleared value o).state] ?_ rfl rfl ?_
        (fun _ hk => .inl hk) (fun _ hk => ?_) fun _ hk => ?_
      · simp [cancelOf]
      · intro k hk
        exact .inr (by simpa using hk)
      · cases hk
      · cases hk
  | unadvised o ho hb hadv =>
      refine modest_put ha a.timer.toList none [(a.checked value o).state] ?_ rfl rfl ?_
        (fun _ hk => .inl hk) (fun _ hk => ?_) fun _ hk => .inl hk
      · simp [cancelOf]
      · intro k hk
        exact .inr (.inl (by simpa using hk))
      · cases hk
  | pausedAlone o ho hb hadv hm =>
      refine modest_put ha a.timer.toList (some (.fieldTimer a.field.id)) [(a.paused value o (some s.nextTask)).state]
        ?_ rfl rfl ?_ (fun _ hk => .inl hk) (fun k hk => ?_) fun _ hk => .inl hk
      · simp [cancelOf]
      · intro k hk
        exact .inr (.inl (by simpa using hk))
      · exact .inr ⟨(Option.some.inj hk).symm, rfl⟩
  | pausedTogether o ho hb hadv hm =>
      refine modest_put ha (a.timer.toList ++ s.formTimer.toList) (some .formTimer) [(a.paused value o none).state]
        ?_ rfl rfl ?_ (fun k hk => ?_) (fun _ hk => ?_) fun _ hk => .inl hk
      · simp [cancelOf]
      · intro k hk
        rcases List.mem_append.mp hk with hk | hk
        · exact .inr (.inl (by simpa using hk))
        · exact .inl (by simpa using hk)
      · exact .inr ⟨(Option.some.inj hk).symm, rfl⟩
      · cases hk

theorem edit_modest (s : Session) (id : String) (value : Value) : s.Modest (s.edit id value).1 := by
  rcases edit_cases s id value with ⟨h, -⟩ | ⟨a, ha, -, h⟩
  · rw [h]
    exact s.modest_nothing
  · exact h.modest (slot?_mem ha)

theorem dispatch_modest (s : Session) (id : String) : s.Modest (s.dispatch id) := by
  cases ha : s.slot? id with
  | none =>
      rw [dispatch_none ha]
      exact s.modest_nothing
  | some a =>
      rw [dispatch_some ha]
      refine modest_put (slot?_mem ha) (if s.cancelStale then a.inflight.toList else [])
        (some (.evaluation a.field.id (a.token + 1) a.value)) [(a.requested s.nextTask).state] ?_ rfl rfl ?_
        (fun _ hk => .inl hk) (fun _ hk => .inl hk) fun k hk => .inr ⟨(Option.some.inj hk).symm, rfl⟩
      · cases s.cancelStale <;> simp [cancelOf]
      · intro k hk
        split at hk
        · exact .inr (.inr (by simpa using hk))
        · cases hk

/-- A request after which the field has no timer any more; the timer may be cancelled on the way. -/
theorem dispatch_untimed_modest (ha : s.slot? id = some a) (cancels : List Nat)
    (hc : ∀ k ∈ cancels, a.timer = some k) :
    s.Modest (((s.putSlot { a with timer := none }).dispatch id).1,
      cancels.map .cancel ++ ((s.putSlot { a with timer := none }).dispatch id).2) := by
  rw [dispatch_untimed ha]
  refine modest_put (slot?_mem ha) (cancels ++ if s.cancelStale then a.inflight.toList else [])
    (some (.evaluation a.field.id (a.token + 1) a.value))
    [(({ a with timer := none } : Slot).requested s.nextTask).state] ?_ rfl rfl ?_
    (fun _ hk => .inl hk) (fun _ hk => ?_) fun k hk => .inr ⟨(Option.some.inj hk).symm, rfl⟩
  · cases s.cancelStale <;> simp [cancelOf]
  · intro k hk
    rcases List.mem_append.mp hk with hk | hk
    · exact .inr (.inl (hc k hk))
    · split at hk
      · exact .inr (.inr (by simpa using hk))
      · cases hk
  · cases hk

theorem fieldTimerFires_modest (s : Session) (id : String) : s.Modest (s.fieldTimerFires id) := by
  cases ha : s.slot? id with
  | none =>
      rw [show s.fieldTimerFires id = (s, []) by simp [fieldTimerFires, ha]]
      exact s.modest_nothing
  | some a =>
      rw [fieldTimerFires_some ha]
      exact dispatch_untimed_modest ha [] (by simp)

theorem settle_modest (s : Session) (task : Nat) (id : String) (token : Nat) (requested : Value) (ending : Ending) :
    s.Modest (s.settle task id token requested ending) := by
  cases ha : s.slot? id with
  | none =>
      rw [settle_none ha]
      exact s.modest_nothing
  | some a =>
      have put : ∀ (b : Slot) (shows : List FieldState), b.timer = (forget a task).timer →
          b.inflight = (forget a task).inflight → s.Modest (s.putSlot b, shows.map .show) := by
        intro b shows ht hi
        refine modest_put (slot?_mem ha) [] none shows rfl rfl rfl (by simp) (fun _ hk => .inl hk)
          (fun k hk => .inl ?_) fun k hk => .inl ?_
        · rw [← (forget_same a task).1, ← ht, hk]
        · exact forget_inflight (hi ▸ hk)
      have hs := settle_some ha task token requested ending
      generalize s.settle task id token requested ending = r at hs
      cases hs with
      | dropped _ h => exact put _ [] rfl rfl
      | committed found h => exact put _ [_] rfl rfl
      | fellBack h => exact put _ [_] rfl rfl

theorem close_modest (s : Session) : s.Modest s.close :=
  ⟨s.tasks, none, [], by simp [close], fun _ hk => hk, rfl, fun _ hk => .inl hk⟩

theorem beginFlush_modest (s : Session) : s.Modest s.beginFlush := by
  refine ⟨s.formTimer.toList, none, [], by simp [beginFlush, cancelOf], fun k hk => ?_, rfl, fun k hk => ?_⟩
  · exact mem_tasks.mpr (.inl (by simpa using hk))
  · rcases mem_tasks.mp hk with hf | hc
    · cases hf
    · exact .inl (mem_tasks.mpr (.inr hc))

theorem formTimerFires_modest (s : Session) : s.Modest s.formTimerFires := by
  refine ⟨[], none, [], rfl, by simp, rfl, fun k hk => ?_⟩
  rcases mem_tasks.mp hk with hf | hc
  · cases hf
  · exact .inl (mem_tasks.mpr (.inr hc))

end Session

theorem Visit.step_modest (v : Visit) (s : Session) : s.Modest (v.step s) := by
  cases v with
  | valued id =>
      change s.Modest (s.dispatchIfValued id)
      rcases Session.dispatchIfValued_cases s id with ⟨h, -⟩ | ⟨a, -, -, h⟩
      · exact h ▸ s.modest_nothing
      · exact h ▸ s.dispatch_modest id
  | pausing id =>
      change s.Modest (s.dispatchIfPausing id)
      rcases Session.dispatchIfPausing_cases s id with ⟨h, -⟩ | ⟨a, ha, -, h⟩
      · exact h ▸ s.modest_nothing
      · exact h ▸ Session.dispatch_untimed_modest ha a.timer.toList (by simp)
  | outcome id o =>
      change s.Modest (s.recordOutcome id o)
      rcases Session.recordOutcome_cases s id o with h | ⟨a, ha, h⟩
      · exact h ▸ s.modest_nothing
      · refine h ▸ Session.modest_put (Session.slot?_mem ha) [] none [_] rfl rfl rfl (by simp)
          (fun _ hk => .inl hk) (fun _ hk => .inl hk) fun _ hk => .inl hk

namespace World

/-- Only the tasks that are cancelled matter to the errands that are there. -/
theorem cancel_asks {s : Session} {r : Stepped} {cancels : List Nat} {job? : Option Job} {shows : List FieldState}
    (h : s.Asks r cancels job? shows) : cancel r.2 = cancel (cancels.map .cancel) := by
  funext e
  have hs : (shows.map Effect.show).any (·.cancels e.id) = false := by
    simp
  cases job? with
  | none => simp [cancel, h.effects, hs]
  | some job => simp [cancel, h.effects, hs]

theorem started_asks {s : Session} {r : Stepped} {cancels : List Nat} {job? : Option Job} {shows : List FieldState}
    (h : s.Asks r cancels job? shows) :
    r.2.filterMap Effect.started? = (job?.map fun job => ({ id := s.nextTask, job } : Errand)).toList := by
  have hc : (cancels.map Effect.cancel).filterMap Effect.started? = [] := by
    simp [Effect.started?, List.filterMap_eq_nil_iff]
  have hs : (shows.map Effect.show).filterMap Effect.started? = [] := by
    simp [Effect.started?, List.filterMap_eq_nil_iff]
  rw [h.effects, List.filterMap_append, List.filterMap_append, hc, hs]
  cases job? with
  | none => rfl
  | some job => rfl

end World

end Formwork
