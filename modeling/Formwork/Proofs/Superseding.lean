import Formwork.Proofs.Effects

/-!
A step of a session does the same whether or not superseded evaluations are cancelled, except that it cancels the
evaluation that it supersedes.
-/

namespace Formwork

namespace Session

/-- The session, told whether a new request cancels the evaluation of the one before it. -/
def heeding (s : Session) (cancelStale : Bool) : Session := { s with cancelStale }

variable {s s' : Session} {a b : Slot} {id : String} {superseded : Option Nat} {job? : Option Job}

@[simp] theorem heeding_self (s : Session) : s.heeding s.cancelStale = s := rfl

/-- The slots after a step: tokens only grow, and what is in flight is the evaluation of the last request. -/
structure Moves (s s' : Session) (superseded : Option Nat) (job? : Option Job) : Prop where
  ids : s'.ids = s.ids
  next : s'.nextTask = s.nextTask + job?.toList.length
  tracked : ∀ k ∈ s'.tasks, k ∈ s.tasks ∨ k = s.nextTask ∧ job?.isSome
  slots : ∀ d ∈ s'.slots, ∃ c ∈ s.slots, d.field = c.field ∧ c.token ≤ d.token ∧
    ∀ k, d.inflight = some k → c.inflight = some k ∧ d.token = c.token ∨
      k = s.nextTask ∧ ∃ v, job? = some (.evaluation d.field.id d.token v)
  superseded : ∀ k, superseded = some k → ∃ c ∈ s.slots, c.inflight = some k ∧
    ∀ d ∈ s'.slots, d.field.id = c.field.id → c.token < d.token

/-- What a step does in both settings. -/
structure Indifferent (s : Session) (step : Session → Stepped) (s' : Session) (cancels : List Nat)
    (superseded : Option Nat) (job? : Option Job) (shows : List FieldState) : Prop where
  same : ∀ cancelStale, step (s.heeding cancelStale) = (s'.heeding cancelStale,
    cancels.map .cancel ++ ((if cancelStale then cancelOf superseded else []) ++
      ((job?.map (Effect.start s.nextTask)).toList ++ shows.map .show)))
  known : ∀ k ∈ cancels, k ∈ s.tasks
  moves : s.Moves s' superseded job?

theorem Indifferent.heeding {step : Session → Stepped} {cancels : List Nat} {shows : List FieldState}
    (h : s.Indifferent step s' cancels superseded job? shows) (cancelStale : Bool) :
    (s.heeding cancelStale).Indifferent step s' cancels superseded job? shows :=
  ⟨h.same, h.known, h.moves.ids, h.moves.next, h.moves.tracked, h.moves.slots, h.moves.superseded⟩

/-- The step does the same in both settings, except that it may supersede an evaluation. -/
def EitherWay (s : Session) (step : Session → Stepped) : Prop :=
  ∃ s' cancels superseded job? shows, s.Indifferent step s' cancels superseded job? shows

theorem Moves.refl (s : Session) : s.Moves s none none :=
  ⟨rfl, rfl, fun _ hk => .inl hk, fun d hd => ⟨d, hd, rfl, Nat.le_refl _, fun _ hk => .inl ⟨hk, rfl⟩⟩, by simp⟩

/-- One slot is put in place. -/
theorem Moves.put (ha : a ∈ s.slots) (b : Slot) (hslots : s'.slots = (s.putSlot b).slots) (hfield : b.field = a.field)
    (htoken : a.token ≤ b.token) (hnext : s'.nextTask = s.nextTask + job?.toList.length)
    (hform : ∀ k, s'.formTimer = some k → s.formTimer = some k ∨ k = s.nextTask ∧ job?.isSome)
    (htimer : ∀ k, b.timer = some k → a.timer = some k ∨ k = s.nextTask ∧ job?.isSome)
    (hinflight : ∀ k, b.inflight = some k → a.inflight = some k ∧ b.token = a.token ∨
      k = s.nextTask ∧ ∃ v, job? = some (.evaluation b.field.id b.token v))
    (hsuperseded : ∀ k, superseded = some k → a.inflight = some k ∧ a.token < b.token) :
    s.Moves s' superseded job? where
  ids := (congrArg (List.map fun c : Slot => c.field.id) hslots).trans (ids_putSlot s b)
  next := hnext
  tracked k hk := by
    rcases mem_tasks.mp hk with hf | ⟨c, hc, hk⟩
    · exact (hform k hf).imp (fun hf => mem_tasks.mpr (.inl hf)) fun hn => hn
    · rw [hslots] at hc
      rcases mem_putSlot hc with rfl | ⟨hc, -⟩
      · rcases hk with hk | hk
        · exact (htimer k hk).imp (fun ht => mem_tasks.mpr (.inr ⟨a, ha, .inl ht⟩)) fun hn => hn
        · rcases hinflight k hk with ⟨hi, -⟩ | ⟨hn, v, hj⟩
          · exact .inl (mem_tasks.mpr (.inr ⟨a, ha, .inr hi⟩))
          · exact .inr ⟨hn, by simp [hj]⟩
      · exact .inl (mem_tasks.mpr (.inr ⟨c, hc, hk⟩))
  slots d hd := by
    rw [hslots] at hd
    rcases mem_putSlot hd with rfl | ⟨hd, -⟩
    · exact ⟨a, ha, hfield, htoken, hinflight⟩
    · exact ⟨d, hd, rfl, Nat.le_refl _, fun _ hk => .inl ⟨hk, rfl⟩⟩
  superseded k hk := by
    obtain ⟨hi, hlt⟩ := hsuperseded k hk
    refine ⟨a, ha, hi, fun d hd he => ?_⟩
    rw [hslots] at hd
    rcases mem_putSlot hd with rfl | ⟨-, hne⟩
    · exact hlt
    · exact absurd (he.trans (congrArg Field.id hfield.symm)) hne

/-! ## Edits -/

theorem schedule_heeding (s : Session) (cancelStale : Bool) (a : Slot) :
    (s.heeding cancelStale).schedule a = ((s.schedule a).1.heeding cancelStale, (s.schedule a).2) := by
  rw [schedule, schedule]
  split
  · rfl
  · change (if s.schema.advisoryEnabled then _ else _) = _
    split
    · rw [arm, arm, show (s.heeding cancelStale).mode = s.mode from rfl]
      cases s.mode <;> rfl
    · rfl

theorem edit_heeding (s : Session) (cancelStale : Bool) (id : String) (value : Value) :
    (s.heeding cancelStale).edit id value =
      (((s.edit id value).1.1.heeding cancelStale, (s.edit id value).1.2), (s.edit id value).2) := by
  have hslot : (s.heeding cancelStale).slot id = s.slot id := rfl
  have hcheck : (s.heeding cancelStale).validator.validateField id value = s.validator.validateField id value := rfl
  rw [edit, edit, hslot, hcheck]
  cases hc : s.closed with
  | true => simp [heeding, hc]
  | false =>
      simp only [show (s.heeding cancelStale).closed = s.closed from rfl, hc, Bool.false_eq_true, if_false]
      cases s.slot id with
      | error e => rfl
      | ok a =>
          cases s.validator.validateField id value with
          | error e => rfl
          | ok o =>
              simp only [schedule_heeding]
              rfl

theorem edit_indifferent (s : Session) (id : String) (value : Value) :
    ∃ s' cancels job? shows, s.Indifferent (fun s => (s.edit id value).1) s' cancels none job? shows := by
  have key : ∀ (cancels : List Nat) (job? : Option Job) (shows : List FieldState),
      (s.edit id value).1.2 = cancels.map .cancel ++
        ((job?.map (Effect.start s.nextTask)).toList ++ shows.map .show) → (∀ k ∈ cancels, k ∈ s.tasks) →
        s.Moves (s.edit id value).1.1 none job? →
          ∃ s' cancels job? shows, s.Indifferent (fun s => (s.edit id value).1) s' cancels none job? shows := by
    intro cancels job? shows hfx hknown hmoves
    refine ⟨_, cancels, job?, shows, ⟨fun cancelStale => ?_, hknown, hmoves⟩⟩
    simp only [edit_heeding, hfx, cancelOf, Option.toList_none, List.map_nil, ite_self, List.nil_append]
  have known : ∀ {a : Slot} {k : Nat}, a ∈ s.slots →
      s.formTimer = some k ∨ a.timer = some k ∨ a.inflight = some k → k ∈ s.tasks := fun ha hk =>
    mem_tasks.mpr (hk.imp_right fun h => ⟨_, ha, h⟩)
  rcases edit_cases s id value with ⟨h, -⟩ | ⟨a, ha, -, h⟩
  · exact key [] none [] (by rw [h]; rfl) (by simp) (by rw [h]; exact .refl s)
  · have hmem := slot?_mem ha
    generalize (s.edit id value).1 = r at key h
    cases h with
    | broken e he =>
        exact key [] none [] rfl (by simp) (.put hmem { a with value } rfl rfl (Nat.le_refl _) rfl (fun _ hk => .inl hk)
          (fun _ hk => .inl hk) (fun _ hk => .inl ⟨hk, rfl⟩) (by simp))
    | cleared o ho hb =>
        refine key (a.timer.toList ++ a.inflight.toList) none [(a.cleared value o).state] (by simp [cancelOf])
          (fun k hk => known hmem (.inr (by simpa using hk)))
          (.put hmem (a.cleared value o) rfl rfl (Nat.le_succ _) rfl (fun _ hk => .inl hk) (fun _ hk => ?_)
            (fun _ hk => ?_) (by simp))
        · cases hk
        · cases hk
    | unadvised o ho hb hadv =>
        refine key a.timer.toList none [(a.checked value o).state] (by simp [cancelOf])
          (fun k hk => known hmem (.inr (.inl (by simpa using hk))))
          (.put hmem (a.checked value o) rfl rfl (Nat.le_refl _) rfl (fun _ hk => .inl hk) (fun _ hk => ?_)
            (fun _ hk => .inl ⟨hk, rfl⟩) (by simp))
        cases hk
    | pausedAlone o ho hb hadv hm =>
        refine key a.timer.toList (some (.fieldTimer a.field.id)) [(a.paused value o (some s.nextTask)).state]
          (by simp [cancelOf]) (fun k hk => known hmem (.inr (.inl (by simpa using hk))))
          (.put hmem (a.paused value o (some s.nextTask)) rfl rfl (Nat.le_refl _) rfl (fun _ hk => .inl hk)
            (fun _ hk => .inr ⟨(Option.some.inj hk).symm, rfl⟩) (fun _ hk => .inl ⟨hk, rfl⟩) (by simp))
    | pausedTogether o ho hb hadv hm =>
        refine key (a.timer.toList ++ s.formTimer.toList) (some .formTimer) [(a.paused value o none).state]
          (by simp [cancelOf]) (fun k hk => known hmem ?_)
          (.put hmem (a.paused value o none) rfl rfl (Nat.le_refl _) rfl
            (fun _ hk => .inr ⟨(Option.some.inj hk).symm, rfl⟩) (fun _ hk => ?_) (fun _ hk => .inl ⟨hk, rfl⟩) (by simp))
        · rcases List.mem_append.mp hk with hk | hk
          · exact .inr (.inl (by simpa using hk))
          · exact .inl (by simpa using hk)
        · cases hk

/-! ## Requests and answers -/

theorem dispatch_eitherWay (ha : s.slot? id = some a) (timer : Option Nat) (cancels : List Nat)
    (hc : ∀ k ∈ cancels, a.timer = some k) (htimer : ∀ k, timer = some k → a.timer = some k)
    {step : Session → Stepped} (hstep : ∀ cancelStale, step (s.heeding cancelStale) =
      ((({ s.putSlot (({ a with timer } : Slot).requested s.nextTask) with
        nextTask := s.nextTask + 1 } : Session).heeding cancelStale),
          cancels.map .cancel ++ ((if cancelStale then cancelOf a.inflight else []) ++
            [.start s.nextTask (.evaluation a.field.id (a.token + 1) a.value),
              .show (({ a with timer } : Slot).requested s.nextTask).state]))) :
    s.EitherWay step := by
  have hmem := slot?_mem ha
  refine ⟨_, cancels, a.inflight, some (.evaluation a.field.id (a.token + 1) a.value), [_], hstep,
    fun k hk => mem_tasks.mpr (.inr ⟨a, hmem, .inl (hc k hk)⟩),
    .put hmem (({ a with timer } : Slot).requested s.nextTask) rfl rfl (Nat.le_succ _) rfl (fun _ hk => .inl hk)
      (fun k hk => .inl (htimer k hk)) (fun k hk => .inr ⟨(Option.some.inj hk).symm, a.value, rfl⟩)
      fun k hk => ⟨hk, Nat.lt_succ_self _⟩⟩

theorem nothing_eitherWay {step : Session → Stepped}
    (h : ∀ cancelStale, step (s.heeding cancelStale) = (s.heeding cancelStale, [])) :
    s.EitherWay step := by
  refine ⟨s, [], none, none, [], ⟨fun cancelStale => ?_, by simp, .refl s⟩⟩
  simp [h, cancelOf]

theorem fieldTimerFires_eitherWay (s : Session) (id : String) :
    s.EitherWay fun s => s.fieldTimerFires id := by
  cases ha : s.slot? id with
  | none =>
      refine nothing_eitherWay fun cancelStale => ?_
      simp [fieldTimerFires, show (s.heeding cancelStale).slot? id = none from ha]
  | some a =>
      refine dispatch_eitherWay ha none [] (by simp) (by simp) fun cancelStale => ?_
      have hs : (s.heeding cancelStale).slot? id = some a := ha
      rw [fieldTimerFires_some hs, dispatch_untimed hs]
      rfl

theorem dispatchIfValued_eitherWay (s : Session) (id : String) : s.EitherWay (dispatchIfValued id) := by
  cases ha : s.slot? id with
  | none =>
      refine nothing_eitherWay fun cancelStale => ?_
      simp [dispatchIfValued, show (s.heeding cancelStale).slot? id = none from ha]
  | some a =>
      cases hb : a.value.isBlank with
      | true =>
          refine nothing_eitherWay fun cancelStale => ?_
          simp [dispatchIfValued, show (s.heeding cancelStale).slot? id = some a from ha, hb]
      | false =>
          refine dispatch_eitherWay ha a.timer [] (by simp) (fun _ hk => hk) fun cancelStale => ?_
          have hs : (s.heeding cancelStale).slot? id = some a := ha
          simp only [dispatchIfValued, hs, hb, Bool.false_eq_true, if_false]
          rw [dispatch_some hs]
          rfl

theorem dispatchIfPausing_eitherWay (s : Session) (id : String) : s.EitherWay (dispatchIfPausing id) := by
  cases ha : s.slot? id with
  | none =>
      refine nothing_eitherWay fun cancelStale => ?_
      simp [dispatchIfPausing, show (s.heeding cancelStale).slot? id = none from ha]
  | some a =>
      by_cases hp : a.phase = .debouncing
      · refine dispatch_eitherWay ha none a.timer.toList (by simp) (by simp) fun cancelStale => ?_
        have hs : (s.heeding cancelStale).slot? id = some a := ha
        rcases dispatchIfPausing_cases (s.heeding cancelStale) id with ⟨-, hn⟩ | ⟨d, hd, -, he⟩
        · exact absurd hp (hn a hs)
        · obtain rfl := Option.some.inj (hs.symm.trans hd)
          rw [he, dispatch_untimed hs]
          rfl
      · refine nothing_eitherWay fun cancelStale => ?_
        simp [dispatchIfPausing, show (s.heeding cancelStale).slot? id = some a from ha, hp]

theorem settle_heeding (s : Session) (cancelStale : Bool) (task : Nat) (id : String) (token : Nat) (requested : Value)
    (ending : Ending) : (s.heeding cancelStale).settle task id token requested ending =
      ((s.settle task id token requested ending).1.heeding cancelStale,
        (s.settle task id token requested ending).2) := by
  rw [settle, settle, show (s.heeding cancelStale).slot? id = s.slot? id from rfl]
  cases s.slot? id with
  | none => rfl
  | some a =>
      cases ending with
      | cancelled => rfl
      | failed =>
          simp only
          split <;> rfl
      | findings found =>
          simp only
          split <;> rfl

theorem settle_eitherWay (s : Session) (task : Nat) (id : String) (token : Nat) (requested : Value)
    (ending : Ending) : s.EitherWay fun s => s.settle task id token requested ending := by
  cases ha : s.slot? id with
  | none =>
      refine nothing_eitherWay fun cancelStale => ?_
      rw [settle_heeding, settle_none ha]
  | some a =>
      have hset := settle_some ha task token requested ending
      have put : ∀ (b : Slot) (shows : List FieldState), b.field = a.field → b.token = a.token → b.timer = a.timer →
          b.inflight = (forget a task).inflight →
          s.settle task id token requested ending = (s.putSlot b, shows.map .show) →
            s.EitherWay fun s => s.settle task id token requested ending := by
        intro b shows hf ht htimer hi he
        refine ⟨s.putSlot b, [], none, none, shows, ⟨fun cancelStale => ?_, by simp, .put (slot?_mem ha) b rfl hf
          (Nat.le_of_eq ht.symm) rfl (fun _ hk => .inl hk) (fun k hk => .inl (htimer ▸ hk))
          (fun k hk => .inl ⟨forget_inflight (hi ▸ hk), ht⟩) (by simp)⟩⟩
        simp [settle_heeding, he, cancelOf]
      obtain ⟨htimer, -, htoken, -⟩ := forget_same a task
      have hfield := forget_field a task
      generalize hr : s.settle task id token requested ending = r at hset put
      cases hset with
      | dropped => exact put _ [] hfield htoken htimer rfl rfl
      | committed found => exact put ((forget a task).committed found) [_] hfield htoken htimer rfl rfl
      | fellBack => exact put (forget a task).fellBack [_] hfield htoken htimer rfl rfl

/-- The timer of the form is forgotten, and perhaps cancelled. -/
theorem forgetForm_eitherWay (s : Session) (cancels : List Nat) (hc : ∀ k ∈ cancels, s.formTimer = some k)
    {step : Session → Stepped} (hstep : ∀ cancelStale, step (s.heeding cancelStale) =
      (({ s with formTimer := none } : Session).heeding cancelStale, cancels.map .cancel)) :
    s.EitherWay step := by
  refine ⟨{ s with formTimer := none }, cancels, none, none, [], ⟨fun cancelStale => ?_, fun k hk => ?_, ?_⟩⟩
  · simp [hstep, cancelOf]
  · exact mem_tasks.mpr (.inl (hc k hk))
  · have same := Moves.refl s
    refine ⟨rfl, rfl, fun k hk => .inl ?_, same.slots, by simp⟩
    exact mem_tasks.mpr (.inr ((mem_tasks.mp hk).resolve_left (by simp)))

theorem beginFlush_eitherWay (s : Session) : s.EitherWay beginFlush :=
  forgetForm_eitherWay s s.formTimer.toList (by simp) fun _ => rfl

theorem formTimerFires_eitherWay (s : Session) : s.EitherWay formTimerFires :=
  forgetForm_eitherWay s [] (by simp) fun _ => rfl

end Session
end Formwork
