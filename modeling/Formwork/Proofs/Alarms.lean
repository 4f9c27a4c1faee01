import Formwork.Agenda
import Mathlib.Data.List.Nodup
import Mathlib.Data.List.Perm.Basic

/-!
The alarms of an agenda in the order in which they go off: a new one comes after those of its time, and time passes to
the first of them.
-/

namespace Formwork

/-- The order in which alarms go off. -/
def Alarm.before (x y : Alarm) : Bool := x.due < y.due || (x.due = y.due && x.serial ≤ y.serial)

theorem Alarm.before_iff {x y : Alarm} : x.before y ↔ x.due < y.due ∨ x.due = y.due ∧ x.serial ≤ y.serial := by
  simp [before]

namespace Agenda

/-- No two alarms have one number, and the next number is a new one. -/
structure Numbered (a : Agenda) : Prop where
  distinct : (a.alarms.map (·.serial)).Nodup
  below : ∀ x ∈ a.alarms, x.serial < a.serial

variable {a : Agenda} {x : Alarm} {xs rest : List Alarm} {first : Alarm}

theorem soonest_pairwise (a : Agenda) : a.soonest.Pairwise fun x y => x.before y := by
  apply @List.pairwise_mergeSort _ Alarm.before
  · intro x y z hxy hyz
    rw [Alarm.before_iff] at hxy hyz ⊢
    omega
  · intro x y
    rw [Bool.or_eq_true, Alarm.before_iff, Alarm.before_iff]
    omega

theorem soonest_perm (a : Agenda) : a.soonest.Perm a.alarms := List.mergeSort_perm _ _

/-- There is only one way to put numbered alarms in order. -/
theorem soonest_eq (hd : (a.alarms.map (·.serial)).Nodup) (hs : xs.Pairwise fun x y => x.before y)
    (hp : xs.Perm a.alarms) : a.soonest = xs := by
  refine List.Perm.eq_of_pairwise ?_ a.soonest_pairwise hs (a.soonest_perm.trans hp.symm)
  intro x y hx hy hxy hyx
  rw [Alarm.before_iff] at hxy hyx
  exact List.inj_on_of_nodup_map hd (a.soonest_perm.mem_iff.mp hx) (hp.mem_iff.mp hy) (by omega)

theorem soonest_due_le (hs : a.soonest = first :: rest) (hx : x ∈ a.alarms) : first.due ≤ x.due := by
  have hp := a.soonest_pairwise
  rw [hs, List.pairwise_cons] at hp
  rcases List.mem_cons.mp (hs ▸ a.soonest_perm.mem_iff.mpr hx) with rfl | hx
  · exact Nat.le_refl _
  · have hb := Alarm.before_iff.mp (hp.1 x hx)
    omega

/-- A new alarm comes after those that are due by its time. -/
theorem soonest_append (h : a.Numbered) (hx : a.serial ≤ x.serial) (serial : Nat) :
    ({ a with alarms := a.alarms ++ [x], serial } : Agenda).soonest =
      (a.soonest.filter fun y => y.due ≤ x.due) ++ x :: a.soonest.filter fun y => !decide (y.due ≤ x.due) := by
  have hmem : ∀ y ∈ a.soonest, y.serial < x.serial := fun y hy =>
    Nat.lt_of_lt_of_le (h.below y (a.soonest_perm.mem_iff.mp hy)) hx
  apply soonest_eq
  · rw [List.map_append]
    refine List.nodup_append.mpr ⟨h.distinct, List.nodup_singleton _, ?_⟩
    intro k hk j hj he
    obtain ⟨y, hy, rfl⟩ := List.mem_map.mp hk
    have hlt := hmem y (a.soonest_perm.mem_iff.mpr hy)
    rw [he, List.mem_singleton.mp hj] at hlt
    exact Nat.lt_irrefl _ hlt
  · refine List.pairwise_append.mpr ⟨a.soonest_pairwise.sublist List.filter_sublist,
      List.pairwise_cons.mpr ⟨?_, a.soonest_pairwise.sublist List.filter_sublist⟩, ?_⟩
    · intro y hy
      have hdue : ¬y.due ≤ x.due := by simpa using (List.mem_filter.mp hy).2
      rw [Alarm.before_iff]
      omega
    · intro y hy z hz
      obtain ⟨hy, hdue⟩ := List.mem_filter.mp hy
      have hdue : y.due ≤ x.due := by simpa using hdue
      have hser := hmem y hy
      rw [Alarm.before_iff]
      rcases List.mem_cons.mp hz with rfl | hz
      · omega
      · have hz : ¬z.due ≤ x.due := by simpa using (List.mem_filter.mp hz).2
        omega
  · have hsplit := List.filter_append_perm (fun y : Alarm => decide (y.due ≤ x.due)) a.soonest
    refine List.perm_middle.trans ((List.Perm.cons x (hsplit.trans a.soonest_perm)).trans ?_)
    exact (List.perm_append_singleton x a.alarms).symm

theorem soonest_filter (h : a.Numbered) (p : Alarm → Bool) :
    ({ a with alarms := a.alarms.filter p } : Agenda).soonest = a.soonest.filter p :=
  soonest_eq (h.distinct.sublist (List.filter_sublist.map _)) (a.soonest_pairwise.sublist List.filter_sublist)
    (a.soonest_perm.filter p)

/-- In a list whose times grow, those of the first time come first. -/
theorem span_due {n : Nat} (h : xs.Pairwise fun x y => x.before y) (hn : ∀ x ∈ xs, n ≤ x.due) :
    (xs.takeWhile fun x => x.due = n) = (xs.filter fun x => x.due = n) ∧
      (xs.dropWhile fun x => x.due = n) = xs.filter fun x => !decide (x.due = n) := by
  induction xs with
  | nil => exact ⟨rfl, rfl⟩
  | cons x xs ih =>
      obtain ⟨hx, hp⟩ := List.pairwise_cons.mp h
      obtain ⟨ht, hd⟩ := ih hp fun y hy => hn y (List.mem_cons_of_mem _ hy)
      by_cases he : x.due = n
      · simp [he, ht, hd]
      · have later : ∀ y ∈ xs, y.due ≠ n := by
          intro y hy
          have hb := Alarm.before_iff.mp (hx y hy)
          have hle := hn x (List.mem_cons_self ..)
          omega
        have hnone : xs.filter (fun y => decide (y.due = n)) = [] :=
          List.filter_eq_nil_iff.mpr fun y hy => by simpa using later y hy
        have hall : xs.filter (fun y => !decide (y.due = n)) = xs :=
          List.filter_eq_self.mpr fun y hy => by simpa using later y hy
        simp [he, hnone, hall]

/-- Time passes, and the alarms of that time go off. -/
def passTo (a : Agenda) (due : Nat) : Agenda :=
  (a.soonest.filter fun x => x.due = due).foldl ring
    { a with now := max a.now due, alarms := a.soonest.filter fun x => !decide (x.due = due) }

theorem passTo_now (a : Agenda) (due : Nat) : (a.passTo due).now = max a.now due := by
  have key : ∀ (xs : List Alarm) (b : Agenda), (xs.foldl ring b).now = b.now := by
    intro xs
    induction xs with
    | nil => exact fun _ => rfl
    | cons x xs ih => exact fun b => ih (b.ring x)
  exact key _ _

theorem advance?_cons {limit : Option Nat} (hs : a.soonest = first :: rest) (hl : limit.all fun l => first.due ≤ l) :
    a.advance? limit = some (a.passTo first.due) := by
  have hp := a.soonest_pairwise
  rw [hs, List.pairwise_cons] at hp
  obtain ⟨ht, hd⟩ := span_due (n := first.due) hp.2 fun x hx =>
    soonest_due_le hs (a.soonest_perm.mem_iff.mp (hs ▸ List.mem_cons_of_mem _ hx))
  rw [passTo, advance?, hs]
  simp only [hl, if_true, ht, hd, decide_true, List.filter_cons, Bool.not_true]
  rfl

/-- Time passes to the first of the alarms. -/
theorem advance?_some {b : Agenda} {limit : Option Nat} (h : a.advance? limit = some b) :
    ∃ x ∈ a.alarms, b = a.passTo x.due ∧ (∀ y ∈ a.alarms, x.due ≤ y.due) ∧ limit.all fun l => x.due ≤ l := by
  cases hs : a.soonest with
  | nil => simp [advance?, hs] at h
  | cons first rest =>
      by_cases hl : limit.all fun l => first.due ≤ l
      · rw [advance?_cons hs hl, Option.some.injEq] at h
        have hmem : first ∈ a.alarms := a.soonest_perm.mem_iff.mp (hs ▸ List.mem_cons_self ..)
        exact ⟨first, hmem, h.symm, fun y hy => soonest_due_le hs hy, hl⟩
      · simp [advance?, hs, hl] at h

theorem advance?_eq_none {limit : Option Nat} :
    a.advance? limit = none ↔ ∀ x ∈ a.alarms, ∃ n, limit = some n ∧ n < x.due := by
  cases hs : a.soonest with
  | nil =>
      have hnil : a.alarms = [] := List.nil_perm.mp (hs ▸ a.soonest_perm)
      simp [advance?, hs, hnil]
  | cons first rest =>
      by_cases hl : limit.all fun l => first.due ≤ l
      · rw [advance?_cons hs hl]
        have hmem : first ∈ a.alarms := a.soonest_perm.mem_iff.mp (hs ▸ List.mem_cons_self ..)
        simp only [reduceCtorEq, false_iff]
        intro hall
        obtain ⟨n, rfl, hn⟩ := hall first hmem
        simp only [Option.all_some, decide_eq_true_eq] at hl
        omega
      · simp only [advance?, hs, hl, Bool.false_eq_true, if_false, true_iff]
        intro x hx
        have hle := soonest_due_le hs hx
        cases limit with
        | none => simp at hl
        | some n =>
            simp only [Option.all_some, decide_eq_true_eq, Nat.not_le] at hl
            exact ⟨n, rfl, by omega⟩

/-- Time that may pass until later passes as far. -/
theorem advance?_later {b : Agenda} {n : Nat} {limit : Option Nat} (h : a.advance? (some n) = some b)
    (hl : limit.all fun m => n ≤ m) : a.advance? limit = some b := by
  cases hs : a.soonest with
  | nil => simp [advance?, hs] at h
  | cons first rest =>
      by_cases hle : first.due ≤ n
      · have hall : limit.all fun m => first.due ≤ m := by
          cases limit with
          | none => rfl
          | some m => exact decide_eq_true (Nat.le_trans hle (of_decide_eq_true hl))
        rw [advance?_cons hs (by simpa using hle)] at h
        rw [advance?_cons hs hall, h]
      · simp [advance?, hs, hle] at h

theorem Numbered.append (h : a.Numbered) (due task : Nat) :
    ({ a with alarms := a.alarms ++ [⟨due, a.serial, task⟩], serial := a.serial + 1 } : Agenda).Numbered := by
  constructor
  · rw [List.map_append]
    refine List.nodup_append.mpr ⟨h.distinct, List.nodup_singleton _, ?_⟩
    intro k hk j hj he
    obtain ⟨y, hy, rfl⟩ := List.mem_map.mp hk
    exact Nat.ne_of_lt (h.below y hy) (he.trans (List.mem_singleton.mp hj))
  · intro y hy
    rcases List.mem_append.mp hy with hy | hy
    · exact Nat.lt_succ_of_lt (h.below y hy)
    · rw [List.mem_singleton.mp hy]
      exact Nat.lt_succ_self _

theorem Numbered.of_sublist (h : a.Numbered) {b : Agenda} (hp : ∃ ys, b.alarms.Perm ys ∧ ys.Sublist a.alarms)
    (hs : b.serial = a.serial) : b.Numbered := by
  obtain ⟨ys, hp, hsub⟩ := hp
  refine ⟨(hp.map _).nodup_iff.mpr (h.distinct.sublist (hsub.map _)), fun x hx => ?_⟩
  rw [hs]
  exact h.below x (hsub.subset (hp.mem_iff.mp hx))

end Agenda
end Formwork
