import Formwork.Proofs.Adjustments
import Mathlib.Data.List.Count

/-!
A task that waits for others goes on once all of them have ended: of the tasks of a gathering that have not reported,
each one has not ended, or its report is among the turns to come.
-/

namespace Formwork

namespace Agenda

variable {a b c : Agenda} {n p id k : Nat} {t u : Task} {s : TaskStage} {P Q : List Nat → Prop}

/-! ## Tasks that wait -/

/-- How far a call to close has come: it waits for tasks for which `P` holds, or they have ended. -/
inductive Closing (P : List Nat → Prop) (n : Nat) (a : Agenda) (t : Task) : Prop
  | fresh (hs : t.stage = .fresh)
  | waiting (g : Gathering) (hg : g ∈ a.gatherings) (hs : t.stage = .gathering g.id) (hP : P g.children)
  | awake (tasks : List Nat) (hs : t.stage = .awake) (hP : P tasks) (hd : ∀ k ∈ tasks, k < n ∧ a.isDone k)
  | done (hs : t.stage = .done)

/-- How many of some tasks have not ended. -/
def undone (a : Agenda) (tasks : List Nat) : Nat := tasks.countP fun k => !a.isDone k

theorem undone_le (hd : ∀ k < n, a.isDone k → b.isDone k) {tasks : List Nat} (ht : ∀ k ∈ tasks, k < n) :
    b.undone tasks ≤ a.undone tasks := by
  refine List.countP_mono_left fun k hk hb => ?_
  by_contra hn
  simp [hd k (ht k hk) (by simpa using hn)] at hb

theorem undone_add (a : Agenda) (tasks : List Nat) : a.undone tasks + tasks.countP a.isDone = tasks.length := by
  induction tasks with
  | nil => rfl
  | cons k tasks ih =>
      rw [undone, List.countP_cons, List.countP_cons, List.length_cons, ← ih, undone]
      cases a.isDone k <;> simp <;> omega

/-- Whoever waits for others is told when they have ended. The tasks have numbers below `n`. -/
structure Attends (P : List Nat → Prop) (n : Nat) (a : Agenda) : Prop where
  below : ∀ g ∈ a.gatherings, ∀ k ∈ g.children, k < n
  reports : ∀ g, .report g ∈ a.turns → g < a.gatherings.length
  left : ∀ g ∈ a.gatherings, a.undone g.children + a.turns.count (.report g.id) ≤ g.left
  closing : ∀ t ∈ a.tasks, t.work = .wait .close → t.cancelled = false → a.Closing P n t

theorem Attends.mono (h : a.Attends P n) (hn : n ≤ p) (hP : ∀ tasks, P tasks → Q tasks) : a.Attends Q p := by
  refine ⟨fun g hg k hk => Nat.lt_of_lt_of_le (h.below g hg k hk) hn, h.reports, h.left, fun t ht hw hc => ?_⟩
  cases h.closing t ht hw hc with
  | fresh hs => exact .fresh hs
  | waiting g hg hs hp => exact .waiting g hg hs (hP _ hp)
  | awake tasks hs hp hd => exact .awake tasks hs (hP _ hp) fun k hk => ⟨Nat.lt_of_lt_of_le (hd k hk).1 hn, (hd k hk).2⟩
  | done hs => exact .done hs

theorem Closing.frame (h : a.Closing P n t)
    (hg : ∀ g ∈ a.gatherings, ∃ g' ∈ b.gatherings, g'.id = g.id ∧ g'.children = g.children)
    (hd : ∀ k < n, a.isDone k → b.isDone k) : b.Closing P n t := by
  cases h with
  | fresh hs => exact .fresh hs
  | waiting g hm hs hp =>
      obtain ⟨g', hm', hid, hc⟩ := hg g hm
      exact .waiting g' hm' (hid ▸ hs) (hc ▸ hp)
  | awake tasks hs hp hk => exact .awake tasks hs hp fun k hm => ⟨(hk k hm).1, hd k (hk k hm).1 (hk k hm).2⟩
  | done hs => exact .done hs

theorem Attends.adjusts (h : a.Attends P n) (hb : a.Adjusts n b) : b.Attends P n where
  below g hg := h.below g (hb.gatherings ▸ hg)
  reports g hg := by
    rw [hb.gatherings]
    refine h.reports g (List.count_pos_iff.mp ?_)
    rw [← hb.reports]
    exact List.count_pos_iff.mpr hg
  left g hg := by
    rw [hb.gatherings] at hg
    rw [hb.reports]
    exact Nat.le_trans (Nat.add_le_add_right (undone_le hb.done (h.below g hg)) _) (h.left g hg)
  closing t ht hw hc :=
    (h.closing t (hb.waits t ht .close hw hc) hw hc).frame (fun g hg => ⟨g, hb.gatherings ▸ hg, rfl, rfl⟩) hb.done

/-! ## The end of a turn -/

theorem isDone_setStage (hid : a.isDone id = false) (s : TaskStage) (k : Nat) :
    (a.setStage id s).isDone k = if k = id then decide (s = .done) else a.isDone k := by
  by_cases hk : k = id
  · subst hk
    have hsome : (a.stage? k).isSome := by
      rw [Option.isSome_iff_ne_none]
      intro hn
      rw [isDone_iff.mpr (by simp [hn])] at hid
      cases hid
    rw [if_pos rfl, isDone_of_stage (stage?_setStage_self hsome s)]
  · rw [if_neg hk, Bool.eq_iff_iff, isDone_iff, isDone_iff, stage?_setStage, if_neg hk]

theorem isDone_setStage_open (hid : a.isDone id = false) (hs : s ≠ .done) (k : Nat) :
    (a.setStage id s).isDone k = a.isDone k := by
  rw [isDone_setStage hid]
  split
  · next hk => rw [hk, hid, decide_eq_false hs]
  · rfl

/-- Of the tasks only the one that goes on is at another stage. -/
theorem mem_setStage (h : t ∈ (a.setStage id s).tasks) :
    (∃ u ∈ a.tasks, u.id = id ∧ t = { u with stage := s }) ∨ t ∈ a.tasks := by
  obtain ⟨u, hu, rfl⟩ := List.mem_map.mp h
  by_cases hi : u.id = id
  · exact .inl ⟨u, hu, hi, if_pos hi⟩
  · exact .inr (by rwa [if_neg hi])

theorem undone_congr (h : ∀ k, b.isDone k = a.isDone k) (tasks : List Nat) : b.undone tasks = a.undone tasks := by
  rw [undone, undone]
  exact List.countP_congr fun k _ => by rw [h]

/-- A task that has not ended goes on to another stage, and so does nobody who waits for others. -/
theorem Attends.setStage (h : a.Attends P n) (hid : a.isDone id = false) (hs : s ≠ .done)
    (hclose : ∀ t ∈ a.tasks, t.id = id → t.work = .wait .close → t.cancelled = false →
      (a.setStage id s).Closing P n { t with stage := s }) : (a.setStage id s).Attends P n := by
  have hsame := isDone_setStage_open hid hs
  refine ⟨h.below, h.reports, fun g hg => ?_, fun t ht hw hc => ?_⟩
  · rw [undone_congr hsame]
    exact h.left g hg
  · rcases mem_setStage ht with ⟨u, hu, hi, rfl⟩ | ht
    · exact hclose u hu hi hw hc
    · exact (h.closing t ht hw hc).frame (fun g hg => ⟨g, hg, rfl, rfl⟩) fun k _ hd => (hsame k).symm ▸ hd

theorem Attends.append_task (h : a.Attends P n) (id : Nat) : (a.append (.task id)).Attends P n :=
  h.adjusts (.of_tasks rfl rfl fun g => by simp [append])

theorem Attends.sleep (h : a.Attends P n) (hid : a.isDone id = false)
    (hw : ∀ t ∈ a.tasks, t.id = id → t.cancelled = false → t.work ≠ .wait .close) (pause : Pause) :
    (a.sleep id pause).Attends P n := by
  have staged (s : TaskStage) (hs : s ≠ .done) : (a.setStage id s).Attends P n :=
    h.setStage hid hs fun t ht hi hwork hc => absurd hwork (hw t ht hi hc)
  cases pause with
  | none | turn => exact (staged .awake (by simp)).append_task id
  | time micros => exact (staged .asleep (by simp)).adjusts (.of_tasks rfl rfl fun _ => rfl)

/-- Some gatherings are to be told, one after the other. -/
def reporting (a : Agenda) (gs : List Nat) : Agenda := { a with turns := a.turns ++ gs.map .report }

theorem foldl_reporting {α : Type} (f : α → Nat) (xs : List α) (a : Agenda) :
    xs.foldl (fun a x => a.append (.report (f x))) a = a.reporting (xs.map f) := by
  induction xs generalizing a with
  | nil => simp [reporting]
  | cons x xs ih =>
      rw [List.foldl_cons, ih]
      simp [reporting, append]

theorem finish_reporting (a : Agenda) (id : Nat) : a.finish id =
    (a.setStage id .done).reporting ((a.gatherings.filter fun g => g.children.contains id).map (·.id)) :=
  foldl_reporting ..

theorem gather_reporting (a : Agenda) (id : Nat) (children : List Nat) : a.gather id children =
    ({ a.setStage id (.gathering a.gatherings.length) with
      gatherings := a.gatherings ++ [⟨a.gatherings.length, id, children, children.length⟩] } : Agenda).reporting
        ((children.filter a.isDone).map fun _ => a.gatherings.length) :=
  foldl_reporting ..

theorem count_reporting (a : Agenda) (gs : List Nat) (g : Nat) :
    (a.reporting gs).turns.count (.report g) = a.turns.count (.report g) + gs.count g := by
  rw [reporting, List.count_append, List.count_map_of_injective gs Turn.report fun _ _ h => Turn.report.inj h]

theorem mem_reporting {gs : List Nat} {g : Nat} (h : .report g ∈ (a.reporting gs).turns) :
    .report g ∈ a.turns ∨ g ∈ gs := by
  simpa [reporting] using h

theorem undone_done (hid : a.isDone id = false) (tasks : List Nat) :
    (a.setStage id .done).undone tasks + tasks.count id = a.undone tasks := by
  induction tasks with
  | nil => rfl
  | cons k tasks ih =>
      rw [undone, List.countP_cons, isDone_setStage hid, undone, List.countP_cons, List.count_cons]
      simp only [undone] at ih
      by_cases hk : k = id
      · simp [hk, hid]
        omega
      · simp [hk]
        omega

theorem Attends.finish (h : a.Attends P n) (hid : a.isDone id = false)
    (hnum : a.gatherings.map (·.id) = List.range a.gatherings.length) : (a.finish id).Attends P n := by
  have hnodup : (a.gatherings.map (·.id)).Nodup := hnum ▸ List.nodup_range
  have hdone : ∀ k < n, a.isDone k → (a.setStage id .done).isDone k := by
    intro k _ hk
    rw [isDone_setStage hid]
    split
    · rfl
    · exact hk
  rw [finish_reporting]
  refine ⟨h.below, fun g hg => ?_, fun g hg => ?_, fun t ht hw hc => ?_⟩
  · rcases mem_reporting hg with hg | hg
    · exact h.reports g hg
    · have hmem : g ∈ a.gatherings.map (·.id) := (List.filter_sublist.map _).subset hg
      exact List.mem_range.mp (hnum ▸ hmem)
  · -- the task is one of those that the gathering waits for, and reports to it, or it is not
    have hcount :
        ((a.gatherings.filter fun g => g.children.contains id).map (·.id)).count g.id ≤ g.children.count id := by
      by_cases hchild : id ∈ g.children
      · refine Nat.le_trans (List.nodup_iff_count_le_one.mp ?_ g.id) (List.count_pos_iff.mpr hchild)
        exact hnodup.sublist (List.filter_sublist.map _)
      · refine Nat.le_of_eq ((List.count_eq_zero.mpr fun hm => ?_).trans (List.count_eq_zero.mpr hchild).symm)
        obtain ⟨g', hg', hi⟩ := List.mem_map.mp hm
        obtain ⟨hg', hc⟩ := List.mem_filter.mp hg'
        obtain rfl := List.inj_on_of_nodup_map hnodup hg' hg hi
        exact hchild (by simpa using hc)
    have hleft := undone_done hid g.children
    have hbefore := h.left g hg
    rw [count_reporting]
    change (a.setStage id .done).undone g.children + (a.turns.count _ + _) ≤ g.left
    omega
  · rcases mem_setStage ht with ⟨u, -, -, rfl⟩ | ht
    · exact .done rfl
    · exact (h.closing t ht hw hc).frame (fun g hg => ⟨g, hg, rfl, rfl⟩) hdone

theorem Attends.gather (h : a.Attends P n) (hid : a.isDone id = false)
    (hnum : a.gatherings.map (·.id) = List.range a.gatherings.length) {children : List Nat}
    (hchildren : ∀ k ∈ children, k < n)
    (hP : (∃ t ∈ a.tasks, t.id = id ∧ t.work = .wait .close ∧ t.cancelled = false) → P children) :
    (a.gather id children).Attends P n := by
  have hsame := isDone_setStage_open (s := .gathering a.gatherings.length) hid (by simp)
  have hnew : Turn.report a.gatherings.length ∉ a.turns := fun hm => Nat.lt_irrefl _ (h.reports _ hm)
  rw [gather_reporting]
  refine ⟨fun g hg => ?_, fun g hg => ?_, fun g hg => ?_, fun t ht hw hc => ?_⟩
  · rcases List.mem_append.mp hg with hg | hg
    · exact h.below g hg
    · rw [List.mem_singleton.mp hg]
      exact hchildren
  · rw [reporting, List.length_append, List.length_singleton]
    rcases mem_reporting hg with hg | hg
    · exact Nat.lt_succ_of_lt (h.reports g hg)
    · obtain ⟨-, -, rfl⟩ := List.mem_map.mp hg
      exact Nat.lt_succ_self _
  · rw [count_reporting, List.map_const', List.count_replicate, ← List.countP_eq_length_filter]
    change (a.setStage id _).undone g.children + (a.turns.count _ + _) ≤ g.left
    rw [undone_congr hsame]
    rcases List.mem_append.mp hg with hg | hg
    · have hlt : g.id < a.gatherings.length := List.mem_range.mp (hnum ▸ List.mem_map_of_mem hg)
      rw [if_neg (by simp; omega)]
      exact h.left g hg
    · obtain rfl := List.mem_singleton.mp hg
      have hall := a.undone_add children
      simp only [List.count_eq_zero.mpr hnew, beq_self_eq_true, if_true]
      omega
  · rcases mem_setStage ht with ⟨u, hu, hi, rfl⟩ | ht
    · exact .waiting _ (List.mem_append_right _ (List.mem_singleton_self _)) rfl (hP ⟨u, hu, hi, hw, hc⟩)
    · exact (h.closing t ht hw hc).frame (fun g hg => ⟨g, List.mem_append_left _ hg, rfl, rfl⟩)
        fun k _ hk => (hsame k).symm ▸ hk

/-! ## Reports, alarms and new waits -/

/-- One of the tasks of a gathering reports. After the last report all of them have ended. -/
theorem Attends.report {rest : List Turn} (h : a.Attends P n) (ho : a.Orderly none) {g : Nat}
    (ht : a.turns = .report g :: rest) : (({ a with turns := rest } : Agenda).report g).Attends P n := by
  have hcount : ∀ i, a.turns.count (.report i) = rest.count (.report i) + if g = i then 1 else 0 := by
    intro i
    rw [ht, List.count_cons]
    simp
  have hnodup : (a.gatherings.map (·.id)).Nodup := ho.numbered ▸ List.nodup_range
  have htold : Attends P n { a with turns := rest, gatherings := a.gatherings.map (told g) } := by
    refine ⟨fun x hx => ?_, fun i hi => ?_, fun x hx => ?_, fun t htask hw hc => ?_⟩
    · obtain ⟨y, hy, rfl⟩ := List.mem_map.mp hx
      rw [told_children]
      exact h.below y hy
    · rw [List.length_map]
      exact h.reports i (ht ▸ List.mem_cons_of_mem _ hi)
    · obtain ⟨y, hy, rfl⟩ := List.mem_map.mp hx
      have hleft := h.left y hy
      rw [hcount] at hleft
      rw [told_children, (told_waiter g y).2, told]
      change a.undone y.children + rest.count (.report y.id) ≤ _
      split
      · next hi =>
          rw [if_pos hi.symm] at hleft
          change _ ≤ y.left - 1
          omega
      · omega
    · refine (h.closing t htask hw hc).frame (fun x hx => ?_) fun _ _ hd => hd
      exact ⟨told g x, List.mem_map_of_mem hx, (told_waiter g x).2, told_children g x⟩
  unfold Agenda.report
  cases hg : ({ a with turns := rest } : Agenda).gathering? g with
  | none =>
      have hmem : g ∈ a.gatherings.map (·.id) :=
        ho.numbered ▸ List.mem_range.mpr (h.reports g (ht ▸ List.mem_cons_self))
      obtain ⟨x, hx, rfl⟩ := List.mem_map.mp hmem
      simpa using List.find?_eq_none.mp hg x hx
  | some x =>
      obtain ⟨hm, rfl⟩ := gathering?_mem hg
      have hm : x ∈ a.gatherings := hm
      by_cases hl : x.left = 1
      · simp only [hl, if_true]
        have hstage := ho.gathering x hm (by omega)
        have hopen : a.isDone x.waiter = false := isDone_of_stage hstage
        refine Attends.append_task (htold.setStage hopen (by simp) fun t htask hi hw hc => ?_) _
        have ht : t.stage = .gathering x.id := by
          rw [← hi, ho.stage_of_mem htask] at hstage
          exact Option.some.inj hstage
        cases h.closing t htask hw hc with
        | fresh hs | awake _ hs | done hs => rw [ht] at hs; cases hs
        | waiting y hy hs hP =>
            rw [ht, TaskStage.gathering.injEq] at hs
            obtain rfl := List.inj_on_of_nodup_map hnodup hm hy hs
            refine .awake x.children rfl hP fun k hk => ⟨h.below x hm k hk, ?_⟩
            -- the report was the last one that `left` counts, so none of the tasks is left that has not ended
            have hnone : a.undone x.children = 0 := by
              have hleft := h.left x hm
              rw [hcount, if_pos rfl] at hleft
              omega
            have hd : a.isDone k := by simpa using List.countP_eq_zero.mp hnone k hk
            exact (isDone_setStage_open hopen (by simp) k).trans hd
      · simp only [hl, if_false]
        exact htold

/-- Alarms wake tasks that sleep: none of them waits for others. -/
theorem Attends.rings {xs : List Alarm} (h : a.Attends P n) (hd : (a.tasks.map (·.id)).Nodup)
    (hs : ∀ x ∈ xs, a.stage? x.task = some .asleep) (hx : (xs.map (·.task)).Nodup) :
    (xs.foldl Agenda.ring a).Attends P n := by
  induction xs generalizing a with
  | nil => exact h
  | cons x xs ih =>
      obtain ⟨hx, hxs⟩ := List.nodup_cons.mp hx
      have hstage := hs x List.mem_cons_self
      refine ih ((h.setStage (isDone_of_stage hstage) (by simp) fun t ht hi hw hc => ?_).append_task x.task) ?_ ?_ hxs
      · rw [← hi, stage?_of_mem hd ht, Option.some.injEq] at hstage
        cases h.closing t ht hw hc with
        | fresh hs | waiting _ _ hs | awake _ hs | done hs => rw [hstage] at hs; cases hs
      · change ((a.setStage x.task .awake).tasks.map (·.id)).Nodup
        rwa [← roster_ids, roster_setStage, roster_ids]
      · intro y hy
        change (a.setStage x.task .awake).stage? y.task = _
        rw [stage?_setStage, if_neg fun he : y.task = x.task => hx (List.mem_map.mpr ⟨y, hy, he⟩)]
        exact hs y (List.mem_cons_of_mem x hy)

theorem Attends.advance? {limit : Option Nat} (h : a.Attends P n) (ho : a.Orderly none)
    (hb : a.advance? limit = some b) : b.Attends P n := by
  unfold Agenda.advance? at hb
  cases hs : a.soonest with
  | nil => simp [hs] at hb
  | cons first rest =>
      simp only [hs, Option.ite_none_right_eq_some, Option.some.injEq] at hb
      obtain ⟨-, rfl⟩ := hb
      have hp : (first :: rest).Perm a.alarms := hs ▸ List.mergeSort_perm _ _
      have hsub : (first :: rest.takeWhile fun x => x.due = first.due).Sublist (first :: rest) :=
        (List.takeWhile_sublist _).cons_cons first
      refine Attends.rings (h.adjusts (.of_tasks rfl rfl fun _ => rfl)) ho.distinct (fun x hx => ?_) ?_
      · exact ho.asleep x (hp.mem_iff.mp (hsub.subset hx))
      · exact ((hp.map _).nodup_iff.mpr ho.alarms).sublist (hsub.map _)

theorem Attends.add (h : a.Attends P n) (wait : Wait) :
    ({ a with tasks := a.tasks ++ [{ id := n, work := .wait wait }] } : Agenda).Attends P (n + 1) := by
  have hsame : ∀ k < n,
      ({ a with tasks := a.tasks ++ [{ id := n, work := .wait wait }] } : Agenda).isDone k = a.isDone k := by
    intro k hk
    rw [Bool.eq_iff_iff, isDone_iff, isDone_iff, stage?_append, if_neg (by simp; omega), Option.or_none]
  have hdone : ∀ k < n, a.isDone k →
      ({ a with tasks := a.tasks ++ [{ id := n, work := .wait wait }] } : Agenda).isDone k := fun k hk hd =>
    (hsame k hk).trans hd
  have hadded : ({ a with tasks := a.tasks ++ [{ id := n, work := .wait wait }] } : Agenda).Attends P n := by
    refine ⟨h.below, h.reports, fun g hg => ?_, fun t ht hw hc => ?_⟩
    · exact Nat.le_trans (Nat.add_le_add_right (undone_le hdone (h.below g hg)) _) (h.left g hg)
    · rcases List.mem_append.mp ht with ht | ht
      · exact (h.closing t ht hw hc).frame (fun g hg => ⟨g, hg, rfl, rfl⟩) hdone
      · rw [List.mem_singleton.mp ht]
        exact .fresh rfl
  exact hadded.mono (Nat.le_succ n) fun _ hp => hp

end Agenda
end Formwork
