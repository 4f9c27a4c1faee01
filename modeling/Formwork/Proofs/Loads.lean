import Formwork.Proofs.Cancelling
import Formwork.Proofs.HiddenTurns
import Mathlib.Algebra.Order.BigOperators.Group.List
import Mathlib.Algebra.Order.Ring.Nat
import Mathlib.Data.Prod.Lex

/-!
How much is left to be done on an agenda. A task is worth less the further it has come, and one that makes requests is
worth more than all of them. Among agendas of one load, the turns to come count.
-/

namespace Formwork

namespace TaskStage

/-- How many stages are still to come, at most. -/
def left : TaskStage → Nat
  | fresh => 3
  | asleep => 2
  | awake | gathering _ => 1
  | done => 0

end TaskStage

/-- Evaluations start no other tasks. -/
def Work.weight (n : Nat) : Work → Nat
  | job (.evaluation ..) => 1
  | _ => n

theorem Work.weight_pos {n : Nat} (hn : 0 < n) (work : Work) : 0 < work.weight n := by
  unfold Work.weight
  split
  · exact Nat.one_pos
  · exact hn

def Task.load (n : Nat) (t : Task) : Nat := t.work.weight n * t.stage.left

namespace Turn

def cost : Turn → Nat
  | task _ => 1
  | report _ => 2

end Turn

namespace Agenda

def load (n : Nat) (a : Agenda) : Nat := (a.tasks.map (Task.load n)).sum

/-- The load of the other tasks. -/
def others (n id : Nat) (a : Agenda) : Nat := ((a.tasks.filter fun t => t.id ≠ id).map (Task.load n)).sum

/-- A report may make one more turn. -/
def pace (a : Agenda) : Nat := (a.turns.map Turn.cost).sum

def rank (n : Nat) (a : Agenda) : Nat ×ₗ Nat := toLex (a.load n, a.pace)

variable {a b : Agenda} {running : Option Nat} {n id k : Nat} {t : Task} {work : Work} {s : TaskStage}

theorem rank_lt_of_load (h : b.load n < a.load n) : b.rank n < a.rank n :=
  Prod.Lex.toLex_lt_toLex.mpr (.inl h)

theorem rank_lt_of_pace (h : b.load n ≤ a.load n) (hp : b.pace < a.pace) : b.rank n < a.rank n :=
  Prod.Lex.toLex_lt_toLex.mpr ((Nat.lt_or_eq_of_le h).imp id fun he => ⟨he, hp⟩)

/-! ## The load -/

theorem load_eq (hd : (a.tasks.map (·.id)).Nodup) (ht : t ∈ a.tasks) : a.load n = a.others n t.id + t.load n := by
  unfold load others
  generalize a.tasks = ts at hd ht
  induction ts with
  | nil => cases ht
  | cons u ts ih =>
      obtain ⟨hu, hd⟩ := List.nodup_cons.mp hd
      by_cases hi : u.id = t.id
      · obtain rfl : u = t := by
          rcases List.mem_cons.mp ht with ht | ht
          · exact ht.symm
          · exact absurd (List.mem_map.mpr ⟨t, ht, hi.symm⟩) hu
        have hrest : ts.filter (fun v => v.id ≠ u.id) = ts :=
          List.filter_eq_self.mpr fun v hv => decide_eq_true fun he => hu (List.mem_map.mpr ⟨v, hv, he⟩)
        rw [List.filter_cons_of_neg (by simp), hrest, List.map_cons, List.sum_cons, Nat.add_comm]
      · have hm : t ∈ ts := (List.mem_cons.mp ht).resolve_left fun he => hi (congrArg Task.id he.symm)
        rw [List.filter_cons_of_pos (by simpa using hi), List.map_cons, List.map_cons, List.sum_cons, List.sum_cons,
          ih hd hm, Nat.add_assoc]

/-- The agenda has one task of that number, which does that work. -/
structure Has (a : Agenda) (id : Nat) (work : Work) : Prop where
  distinct : (a.tasks.map (·.id)).Nodup
  present : (id, work) ∈ a.roster

theorem has_of_mem (hd : (a.tasks.map (·.id)).Nodup) (ht : t ∈ a.tasks) : a.Has t.id t.work :=
  ⟨hd, List.mem_map_of_mem ht⟩

theorem others_setStage (a : Agenda) (id : Nat) (s : TaskStage) : (a.setStage id s).others n id = a.others n id := by
  have he : ∀ ts : List Task, (ts.map fun t => if t.id = id then { t with stage := s } else t).filter
      (fun t => t.id ≠ id) = ts.filter fun t => t.id ≠ id := by
    intro ts
    induction ts with
    | nil => rfl
    | cons t ts ih => by_cases hi : t.id = id <;> simp_all
  unfold others setStage
  rw [he]

theorem load_setStage (h : a.Has id work) (s : TaskStage) :
    (a.setStage id s).load n = a.others n id + work.weight n * s.left := by
  obtain ⟨t, ht, he⟩ := List.mem_map.mp h.present
  obtain ⟨rfl, rfl⟩ := Prod.mk.inj he
  have hm : { t with stage := s } ∈ (a.setStage t.id s).tasks := List.mem_map.mpr ⟨t, ht, if_pos rfl⟩
  have hids : ((a.setStage t.id s).tasks.map (·.id)).Nodup := by
    rw [← roster_ids, roster_setStage, roster_ids]
    exact h.distinct
  rw [load_eq hids hm, others_setStage]
  rfl

theorem load_finish (h : a.Has id work) : (a.finish id).load n = a.others n id := by
  have hs := load_setStage (n := n) h .done
  rw [load, finish_tasks]
  exact hs

theorem load_sleep (h : a.Has id work) (pause : Pause) :
    (a.sleep id pause).load n ≤ a.others n id + work.weight n * 2 := by
  cases pause with
  | none | turn =>
      refine (Nat.le_of_eq (load_setStage h .awake)).trans (Nat.add_le_add_left ?_ _)
      exact Nat.mul_le_mul_left _ (by decide)
  | time micros => exact Nat.le_of_eq (load_setStage h .asleep)

theorem load_gather (h : a.Has id work) (children : List Nat) :
    (a.gather id children).load n = a.others n id + work.weight n := by
  rw [load, gather_tasks]
  exact (load_setStage h _).trans (by rw [TaskStage.left, Nat.mul_one])

/-- Tasks that change into lighter ones. -/
theorem others_map (f : Task → Task) (hid : ∀ t, (f t).id = t.id)
    (hf : ∀ t ∈ a.tasks, (f t).load n ≤ t.load n) :
    ({ a with tasks := a.tasks.map f } : Agenda).others n k ≤ a.others n k := by
  have hp : ((fun t : Task => decide (t.id ≠ k)) ∘ f) = fun t => decide (t.id ≠ k) := by
    funext t
    simp [hid]
  unfold others
  rw [List.filter_map, hp, List.map_map]
  exact List.sum_le_sum fun t ht => hf t (List.mem_filter.mp ht).1

theorem called_load (id : Nat) (t : Task) : (called id t).load n ≤ t.load n := by
  by_cases hi : t.id = id
  · by_cases hs : t.stage = .asleep
    · have hc : called id t = { t with stage := .awake, cancelled := true } := by simp [called, hi, hs]
      rw [hc, Task.load, Task.load, hs]
      exact Nat.mul_le_mul_left _ (by simp [TaskStage.left])
    · simp [called, hi, hs, Task.load]
  · rw [called, if_neg hi]

/-- The load of the others does not grow when jobs are cancelled. -/
theorem Orderly.others_cancels (h : a.Orderly running) {ks : List Nat}
    (hj : ∀ i ∈ ks, ∀ x ∈ a.roster, x.1 = i → ∃ j, x.2 = .job j) :
    (ks.foldl Agenda.cancel a).others n k ≤ a.others n k := by
  induction ks generalizing a with
  | nil => exact Nat.le_refl _
  | cons i ks ih =>
      have hi := hj i (List.mem_cons_self ..)
      have hc := h.cancelled hi
      refine (ih hc.orderly fun j hm x hx => hj j (List.mem_cons_of_mem _ hm) x (hc.roster ▸ hx)).trans ?_
      cases ht : a.task? i with
      | none =>
          have he : a.cancel i = a := by simp [Agenda.cancel, ht]
          rw [he]
      | some t =>
          obtain ⟨hm, rfl⟩ := task?_mem ht
          obtain ⟨j, hw⟩ := hi (t.id, t.work) (List.mem_map_of_mem hm) rfl
          have hmap := others_map (a := a) (n := n) (k := k) _ (called_id t.id) fun u _ => called_load t.id u
          rcases cancel_job h.distinct hm (h.jobs t hm j hw) with ⟨-, he⟩ | ⟨-, he⟩ | ⟨-, he⟩
          · rw [he]
          · rw [he]
            exact hmap
          · rw [he]
            exact hmap

theorem others_start (a : Agenda) (id : Nat) (work : Work) :
    (a.start id work).others n k ≤ a.others n k + work.weight n * 3 := by
  unfold others Agenda.start append
  rw [List.filter_append, List.map_append, List.sum_append]
  refine Nat.add_le_add_left ?_ _
  by_cases hi : id = k
  · rw [List.filter_cons_of_neg (by simpa using hi)]
    exact Nat.zero_le _
  · rw [List.filter_cons_of_pos (by simpa using hi)]
    exact Nat.le_refl _

/-! ## Turns and time -/

theorem pace_append (a : Agenda) (turn : Turn) : (a.append turn).pace = a.pace + turn.cost := by
  simp [pace, Agenda.append]

theorem load_stage {r : TaskStage} (hd : (a.tasks.map (·.id)).Nodup) (hr : a.stage? id = some r) :
    ∃ work, a.Has id work ∧ a.load n = a.others n id + work.weight n * r.left := by
  obtain ⟨t, ht, rfl⟩ := Option.map_eq_some_iff.mp hr
  obtain ⟨hm, rfl⟩ := task?_mem ht
  exact ⟨t.work, has_of_mem hd hm, load_eq hd hm⟩

/-- A report of a gathering wakes at most the task that waits. -/
theorem Orderly.rank_report {g : Nat} {rest : List Turn} (h : a.Orderly none) (ht : a.turns = .report g :: rest) :
    (({ a with turns := rest } : Agenda).report g).rank n < a.rank n := by
  have hpace : a.pace = 2 + ({ a with turns := rest } : Agenda).pace := by
    simp [pace, ht, Turn.cost]
  have ho := h.next_report ht
  have hload : ({ a with turns := rest } : Agenda).load n = a.load n := rfl
  generalize ({ a with turns := rest } : Agenda) = b at ho hpace hload ⊢
  have hsame : b.pace < a.pace := by omega
  unfold Agenda.report
  cases hg : b.gathering? g with
  | none => exact rank_lt_of_pace (Nat.le_of_eq hload) hsame
  | some u =>
      obtain ⟨hm, rfl⟩ := gathering?_mem hg
      by_cases hl : u.left = 1
      · obtain ⟨work, hx, hl'⟩ := load_stage (n := n) ho.distinct (ho.gathering u hm (by omega))
        have hwoken : (b.setStage u.waiter .awake).load n = a.load n :=
          (load_setStage hx _).trans (hl'.symm.trans hload)
        simp only [hl, if_true]
        refine rank_lt_of_pace (Nat.le_of_eq hwoken) ?_
        rw [pace_append]
        change b.pace + 1 < a.pace
        omega
      · simp only [hl, if_false]
        exact rank_lt_of_pace (Nat.le_of_eq hload) hsame

/-- Alarms wake tasks that sleep. -/
theorem Orderly.rings_load (hn : 0 < n) {xs : List Alarm}
    (h : ({ a with alarms := xs ++ a.alarms } : Agenda).Orderly running) :
    (xs.foldl Agenda.ring a).load n + xs.length ≤ a.load n := by
  induction xs generalizing a with
  | nil => exact Nat.le_refl _
  | cons x xs ih =>
      have hring : (({ a with alarms := xs ++ a.alarms } : Agenda).ring x).Orderly running :=
        Orderly.ring (a := { a with alarms := xs ++ a.alarms }) h
      have hrest := ih (a := a.ring x) hring
      obtain ⟨work, hx, hl⟩ := load_stage (n := n) h.distinct (h.asleep x (List.mem_cons_self ..))
      have hwoken : (a.ring x).load n = a.others n x.task + work.weight n * 1 := load_setStage hx .awake
      have hbefore : a.load n = a.others n x.task + work.weight n * 2 := hl
      have hpos := Work.weight_pos hn work
      rw [List.foldl_cons, List.length_cons]
      omega

theorem Orderly.rank_passTo (hn : 0 < n) (h : a.Orderly running) {x : Alarm} (hx : x ∈ a.alarms) :
    (a.passTo x.due).rank n < a.rank n := by
  have hsplit := List.filter_append_perm (fun y : Alarm => decide (y.due = x.due)) a.soonest
  have hp := (hsplit.trans a.soonest_perm).symm
  have ho : ({ a with alarms := _ } : Agenda).Orderly running := Orderly.perm h hp
  have hload := Orderly.rings_load (n := n) hn (a := { a with
    now := max a.now x.due, alarms := a.soonest.filter fun y => !decide (y.due = x.due) })
    ⟨ho.distinct, ho.once, ho.ready, ho.alarms, ho.asleep, ho.gathering, ho.numbered, ho.jobs⟩
  have hmem : x ∈ a.soonest.filter fun y => y.due = x.due :=
    List.mem_filter.mpr ⟨a.soonest_perm.mem_iff.mpr hx, decide_eq_true rfl⟩
  have hlen := List.length_pos_of_mem hmem
  refine rank_lt_of_load ?_
  change (a.passTo x.due).load n + _ ≤ a.load n at hload
  omega

end Agenda
end Formwork
