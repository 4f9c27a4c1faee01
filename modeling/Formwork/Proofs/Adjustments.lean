import Formwork.Proofs.Mirrors
import Formwork.Proofs.Places

/-!
Whatever a step of the session asks for, and whatever its listeners answer: jobs are started and tasks cancelled, but no
task ends, and nobody who waits is disturbed.
-/

namespace Formwork

namespace Agenda

variable {a b c : Agenda} {n p id k : Nat} {t u : Task} {s : TaskStage}

/-! ## Tasks that have ended -/

theorem isDone_iff : a.isDone k ↔ ∀ s, a.stage? k = some s → s = .done := by
  unfold isDone stage?
  cases a.task? k <;> simp

theorem isDone_of_stage (h : a.stage? k = some s) : a.isDone k = decide (s = .done) := by
  obtain ⟨t, ht, rfl⟩ := Option.map_eq_some_iff.mp h
  rw [isDone, ht]

theorem stage?_append (a : Agenda) (u : Task) (k : Nat) :
    ({ a with tasks := a.tasks ++ [u] } : Agenda).stage? k =
      (a.stage? k).or (if u.id = k then some u.stage else none) := by
  unfold stage? task?
  rw [List.find?_append]
  by_cases hu : u.id = k <;> cases a.tasks.find? fun t => t.id = k <;> simp [hu]

theorem stage?_putTask (a : Agenda) (u : Task) (k : Nat) :
    (a.putTask u).stage? k = if k = u.id then (a.stage? k).map fun _ => u.stage else a.stage? k := by
  rw [stage?, putTask, task?_map]
  · cases hk : a.task? k with
    | none => simp [stage?, hk]
    | some t =>
        have hi := (task?_mem hk).2
        by_cases h : k = u.id
        · simp [stage?, hk, hi, ← h]
        · simp [stage?, hk, hi, h]
  · intro t
    split
    · next h => exact h.symm
    · rfl

/-! ## Jobs that are started and cancelled -/

/-- The agenda after jobs were started, under numbers from `n` on, and tasks cancelled. No task has ended by that. -/
structure Adjusts (n : Nat) (a b : Agenda) : Prop where
  waits : ∀ t ∈ b.tasks, ∀ w, t.work = .wait w → t.cancelled = false → t ∈ a.tasks
  ended : ∀ k, b.stage? k = some .done → a.stage? k = some .done
  going : ∀ k, a.isDone k = false → b.isDone k = false
  done : ∀ k < n, a.isDone k → b.isDone k
  gatherings : b.gatherings = a.gatherings
  reports : ∀ g, b.turns.count (.report g) = a.turns.count (.report g)

namespace Adjusts

theorem refl (n : Nat) (a : Agenda) : a.Adjusts n a :=
  ⟨fun _ h _ _ _ => h, fun _ h => h, fun _ h => h, fun _ _ h => h, rfl, fun _ => rfl⟩

theorem trans (h : a.Adjusts n b) (h' : b.Adjusts p c) (hn : n ≤ p) : a.Adjusts n c where
  waits t ht w hw hc := h.waits t (h'.waits t ht w hw hc) w hw hc
  ended k hk := h.ended k (h'.ended k hk)
  going k hk := h'.going k (h.going k hk)
  done k hk hd := h'.done k (Nat.lt_of_lt_of_le hk hn) (h.done k hk hd)
  gatherings := h'.gatherings.trans h.gatherings
  reports g := (h'.reports g).trans (h.reports g)

/-- Only turns of tasks, alarms and time differ. -/
theorem of_tasks (ht : b.tasks = a.tasks) (hg : b.gatherings = a.gatherings)
    (hr : ∀ g, b.turns.count (.report g) = a.turns.count (.report g)) : a.Adjusts n b := by
  have stage : ∀ k, b.stage? k = a.stage? k := fun k => by rw [stage?, stage?, task?, task?, ht]
  have done : ∀ k, b.isDone k = a.isDone k := fun k => by rw [Bool.eq_iff_iff, isDone_iff, isDone_iff, stage]
  exact ⟨fun t hm _ _ _ => ht ▸ hm, fun k hk => stage k ▸ hk, fun k hk => (done k).trans hk,
    fun k _ hk => (done k).symm ▸ hk, hg, hr⟩

theorem start (a : Agenda) (hn : n ≤ id) (job : Job) : a.Adjusts n (a.start id (.job job)) := by
  have stage (k : Nat) : (a.start id (.job job)).stage? k = (a.stage? k).or (if id = k then some .fresh else none) :=
    stage?_append a { id, work := .job job } k
  refine ⟨fun t ht w hw _ => ?_, fun k hk => ?_, fun k hk => ?_, fun k hk hd => ?_, rfl, fun g => ?_⟩
  · rcases List.mem_append.mp ht with ht | ht
    · exact ht
    · rw [List.mem_singleton.mp ht] at hw
      cases hw
  · rw [stage] at hk
    cases hs : a.stage? k with
    | some s => rwa [hs] at hk
    | none => simp [hs] at hk
  · cases hs : a.stage? k with
    | some s =>
        rw [isDone_of_stage hs] at hk
        rw [isDone_of_stage (by rw [stage, hs]; rfl), hk]
    | none =>
        rw [isDone_iff.mpr (by simp [hs])] at hk
        cases hk
  · refine isDone_iff.mpr fun s hs => isDone_iff.mp hd s ?_
    rwa [stage, if_neg (by omega), Option.or_none] at hs
  · simp [Agenda.start, append]

/-- A task that has not ended is marked as cancelled. -/
theorem putTask (ht : a.task? id = some t) (hid : u.id = id) (hc : u.cancelled) (hu : u.stage ≠ .done)
    (hs : t.stage ≠ .done) : a.Adjusts n (a.putTask u) := by
  subst hid
  have hstage : a.stage? u.id = some t.stage := by rw [stage?, ht, Option.map_some]
  have same {k : Nat} (hk : k ≠ u.id) : (a.putTask u).stage? k = a.stage? k := by rw [stage?_putTask, if_neg hk]
  have put : (a.putTask u).stage? u.id = some u.stage := by rw [stage?_putTask, if_pos rfl, hstage, Option.map_some]
  refine ⟨fun x hx w hw hx' => ?_, fun k hk => ?_, fun k hk => ?_, fun k _ hd => ?_, rfl, fun _ => rfl⟩
  · obtain ⟨y, hy, rfl⟩ := List.mem_map.mp hx
    split at hx'
    · rw [hc] at hx'
      cases hx'
    · next hne =>
        rw [if_neg hne]
        exact hy
  · by_cases hi : k = u.id
    · rw [hi, put, Option.some.injEq] at hk
      exact absurd hk hu
    · rwa [same hi] at hk
  · by_cases hi : k = u.id
    · rw [hi, isDone_of_stage put]
      exact decide_eq_false hu
    · rw [← hk, Bool.eq_iff_iff, isDone_iff, isDone_iff, same hi]
  · by_cases hi : k = u.id
    · exact absurd (isDone_iff.mp hd _ (hi ▸ hstage)) hs
    · rwa [isDone_iff, same hi, ← isDone_iff]

theorem cancelSimple (n : Nat) (a : Agenda) (id : Nat) : a.Adjusts n (a.cancelSimple id) := by
  unfold Agenda.cancelSimple
  split
  · exact .refl n a
  · next t ht =>
      have hid := (task?_mem ht).2
      split
      · next hs => exact .putTask ht hid rfl (by simp [hs]) (by simp [hs])
      · next hs => exact .putTask ht hid rfl (by simp [hs]) (by simp [hs])
      · next hs =>
          have hput : a.Adjusts n (a.putTask { t with stage := .awake, cancelled := true }) :=
            .putTask ht hid rfl (by simp) (by simp [hs])
          exact ⟨hput.waits, hput.ended, hput.going, hput.done, rfl, fun g => by simp [append, Agenda.putTask]⟩
      · exact .refl n a
      · exact .refl n a

theorem fold {f : Agenda → Nat → Agenda} (hf : ∀ (a : Agenda) k, a.Adjusts n (f a k)) (a : Agenda) (ks : List Nat) :
    a.Adjusts n (ks.foldl f a) := by
  induction ks generalizing a with
  | nil => exact .refl n a
  | cons k ks ih => exact (hf a k).trans (ih (f a k)) (Nat.le_refl n)

theorem cancel (n : Nat) (a : Agenda) (id : Nat) : a.Adjusts n (a.cancel id) := by
  unfold Agenda.cancel
  split
  · exact .refl n a
  · next t ht =>
      split
      · next g hs =>
          have hput : a.Adjusts n (a.putTask { t with cancelled := true }) :=
            .putTask ht (task?_mem ht).2 rfl (by simp [hs]) (by simp [hs])
          exact hput.trans (.fold (cancelSimple n) _ _) (Nat.le_refl n)
      · exact cancelSimple n a id

end Adjusts

end Agenda

namespace LiveSession

variable {l m n : LiveSession} {r : Stepped} {step : Session → Stepped} {edit : Editing}

/-- Jobs were started and tasks cancelled. -/
structure Adjusts (l m : LiveSession) : Prop where
  agenda : l.agenda.Adjusts l.session.nextTask m.agenda
  next : l.session.nextTask ≤ m.session.nextTask
  wakeful : ∀ running, l.agenda.Wakeful running → m.agenda.Wakeful running

theorem Adjusts.refl (l : LiveSession) : l.Adjusts l := ⟨.refl _ _, Nat.le_refl _, fun _ h => h⟩

theorem Adjusts.trans (h : l.Adjusts m) (h' : m.Adjusts n) : l.Adjusts n :=
  ⟨h.agenda.trans h'.agenda h.next, Nat.le_trans h.next h'.next, fun running hw =>
    h'.wakeful running (h.wakeful running hw)⟩

theorem Adjusts.of_same (hs : m.session = l.session) (ha : m.agenda = l.agenda) : l.Adjusts m :=
  ⟨ha ▸ .refl _ _, hs ▸ Nat.le_refl _, fun _ hw => ha ▸ hw⟩

section

variable (hedit : ∀ (l : LiveSession) id v, l.Adjusts (edit l id v).1)

include hedit

theorem editAll_adjusts (l : LiveSession) (edits : List (String × Value)) : l.Adjusts (editAll edit l edits) := by
  induction edits generalizing l with
  | nil => exact .refl l
  | cons e edits ih =>
      have hone := hedit l e.1 e.2
      rw [editAll]
      split
      · next m s hr =>
          rw [hr] at hone
          exact hone.trans (ih m)
      · next m f hr => rwa [hr] at hone

theorem notify_adjusts (l : LiveSession) (state : FieldState) : l.Adjusts (notify edit l state) := by
  unfold notify
  generalize l.listeners = listeners
  induction listeners generalizing l with
  | nil => exact .refl l
  | cons listener listeners ih =>
      have hseen : l.Adjusts (l.see (.shown l.now listener.name state)) := .of_same rfl rfl
      exact (hseen.trans (editAll_adjusts hedit _ _)).trans (ih _)

theorem shows_adjust (l : LiveSession) (shows : List FieldState) :
    l.Adjusts ((shows.map Effect.show).foldl (perform edit) l) := by
  induction shows generalizing l with
  | nil => exact .refl l
  | cons state shows ih => exact (notify_adjusts hedit l state).trans (ih _)

theorem carryOut_adjusts (h : l.session.Modest r) : l.Adjusts (carryOut edit l r) := by
  obtain ⟨cancels, job?, shows, h⟩ := h
  rw [carryOut, h.effects, List.foldl_append, List.foldl_append, perform_cancels]
  have hcancels := Agenda.Adjusts.fold (Agenda.Adjusts.cancel l.session.nextTask) l.agenda cancels
  refine Adjusts.trans ⟨?_, ?_, fun running hw => ?_⟩ (shows_adjust hedit _ shows)
  · cases job? with
    | none => exact hcancels
    | some job => exact hcancels.trans (.start _ (Nat.le_refl _) job) (Nat.le_refl _)
  · cases job? <;> exact h.next ▸ Nat.le_add_right ..
  · cases job? with
    | none => exact hw.cancels cancels
    | some job => exact (hw.cancels cancels).start _ _

end

theorem editTo_adjusts (depth : Nat) (l : LiveSession) (id : String) (value : Value) :
    l.Adjusts (editTo depth l id value).1 := by
  induction depth generalizing l id value with
  | zero => exact .refl l
  | succ depth ih => exact carryOut_adjusts ih (l.session.edit_modest id value)

theorem edit_adjusts (l : LiveSession) (id : String) (value : Value) : l.Adjusts (l.edit id value).1 :=
  editTo_adjusts maxDepth l id value

theorem apply_adjusts (h : l.session.Modest (step l.session)) : l.Adjusts (l.apply step) :=
  carryOut_adjusts (editTo_adjusts maxDepth) h

theorem visits_adjust (l : LiveSession) (vs : List Visit) : l.Adjusts (vs.foldl (fun l v => l.apply v.step) l) := by
  induction vs generalizing l with
  | nil => exact .refl l
  | cons v vs ih => exact (apply_adjusts (v.step_modest l.session)).trans (ih _)

theorem applyEach_adjusts (l : LiveSession) (f : String → Visit) : l.Adjusts (l.applyEach fun id => (f id).step) := by
  have h := l.visits_adjust (l.session.ids.map f)
  rwa [List.foldl_map] at h

theorem flushNow_adjusts (l : LiveSession) : l.Adjusts l.flushNow :=
  (apply_adjusts l.session.beginFlush_modest).trans (applyEach_adjusts _ .pausing)

theorem validateAll_adjusts (l : LiveSession) : l.Adjusts l.validateAll.1 := by
  unfold validateAll
  split
  · next outcomes _ =>
      have h := l.visits_adjust (outcomes.map fun o => .outcome o.1 o.2)
      rwa [List.foldl_map] at h
  · exact .refl l

end LiveSession
end Formwork
