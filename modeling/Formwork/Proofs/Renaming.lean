import Formwork.Proofs.Ticks
import Mathlib.Data.List.Sort

/-!
Agendas whose tasks have other numbers: what happens to them is the same, as long as nobody waits for others.
-/

namespace Formwork

def Task.rename (ρ : Nat → Nat) (t : Task) : Task := { t with id := ρ t.id }

def Turn.rename (ρ : Nat → Nat) : Turn → Turn
  | task id => task (ρ id)
  | report gathering => report gathering

def Alarm.rename (ρ : Nat → Nat) (x : Alarm) : Alarm := { x with task := ρ x.task }

def Effect.rename (ρ : Nat → Nat) : Effect → Effect
  | start task job => start (ρ task) job
  | cancel task => cancel (ρ task)
  | «show» state => «show» state

namespace Agenda

/-- The tasks get other numbers. Gatherings are left out. -/
def rename (ρ : Nat → Nat) (a : Agenda) : Agenda :=
  { a with tasks := a.tasks.map (Task.rename ρ), turns := a.turns.map (Turn.rename ρ)
           alarms := a.alarms.map (Alarm.rename ρ) }

variable {ρ σ : Nat → Nat} {a : Agenda} {t : Task}

theorem roster_rename (ρ : Nat → Nat) (a : Agenda) : (a.rename ρ).roster = a.roster.map fun x => (ρ x.1, x.2) := by
  rw [roster, roster, rename, List.map_map, List.map_map]
  rfl

theorem Plain.rename (h : a.Plain) (ρ : Nat → Nat) : (a.rename ρ).Plain := by
  refine ⟨h.gatherings, fun t ht => ?_, fun turn ht => ?_⟩
  · obtain ⟨u, hu, rfl⟩ := List.mem_map.mp ht
    exact h.stages u hu
  · obtain ⟨u, hu, rfl⟩ := List.mem_map.mp ht
    obtain ⟨k, rfl⟩ := h.turns u hu
    exact ⟨ρ k, rfl⟩

/-- Only the numbers that there are matter. -/
theorem rename_congr (ht : ∀ t ∈ a.tasks, ρ t.id = σ t.id) (hturns : ∀ k, .task k ∈ a.turns → ρ k = σ k)
    (halarms : ∀ x ∈ a.alarms, ρ x.task = σ x.task) : a.rename ρ = a.rename σ := by
  have htasks : a.tasks.map (Task.rename ρ) = a.tasks.map (Task.rename σ) :=
    List.map_congr_left fun t hm => by rw [Task.rename, Task.rename, ht t hm]
  have hturns : a.turns.map (Turn.rename ρ) = a.turns.map (Turn.rename σ) := List.map_congr_left fun turn hm => by
    cases turn with
    | task k => rw [Turn.rename, Turn.rename, hturns k hm]
    | report g => rfl
  have halarms : a.alarms.map (Alarm.rename ρ) = a.alarms.map (Alarm.rename σ) :=
    List.map_congr_left fun x hm => by rw [Alarm.rename, Alarm.rename, halarms x hm]
  rw [rename, rename, htasks, hturns, halarms]

theorem append_rename (a : Agenda) (turn : Turn) : (a.append turn).rename ρ = (a.rename ρ).append (turn.rename ρ) := by
  simp [rename, append]

theorem start_rename (a : Agenda) (id : Nat) (work : Work) :
    (a.start id work).rename ρ = (a.rename ρ).start (ρ id) work := by
  simp [rename, start, append, Task.rename, Turn.rename]

section

variable (hρ : Function.Injective ρ)

include hρ

theorem task?_rename (a : Agenda) (k : Nat) : (a.rename ρ).task? (ρ k) = (a.task? k).map (Task.rename ρ) := by
  have hsame : ((fun t : Task => decide (t.id = ρ k)) ∘ Task.rename ρ) = fun t => decide (t.id = k) := by
    funext t
    simp [Task.rename, hρ.eq_iff]
  rw [task?, task?, rename, List.find?_map, hsame]

/-- A change of one task. -/
theorem map_rename (a : Agenda) (k : Nat) {f g : Task → Task} (h : ∀ t, t.id = k → (f t).rename ρ = g (t.rename ρ)) :
    ({ a with tasks := a.tasks.map fun t => if t.id = k then f t else t } : Agenda).rename ρ =
      { a.rename ρ with tasks := (a.rename ρ).tasks.map fun t => if t.id = ρ k then g t else t } := by
  simp only [rename, List.map_map]
  congr 1
  refine List.map_congr_left fun t _ => ?_
  by_cases hk : t.id = k
  · have hk' : (t.rename ρ).id = ρ k := congrArg ρ hk
    rw [Function.comp_apply, Function.comp_apply, if_pos hk, if_pos hk', h t hk]
  · have hk' : (t.rename ρ).id ≠ ρ k := fun he => hk (hρ he)
    rw [Function.comp_apply, Function.comp_apply, if_neg hk, if_neg hk']

theorem setStage_rename (a : Agenda) (k : Nat) (s : TaskStage) :
    (a.setStage k s).rename ρ = (a.rename ρ).setStage (ρ k) s :=
  map_rename hρ a k fun _ _ => rfl

theorem putTask_rename (a : Agenda) (t : Task) : (a.putTask t).rename ρ = (a.rename ρ).putTask (t.rename ρ) :=
  map_rename hρ a t.id fun _ _ => rfl

theorem sleep_rename (a : Agenda) (k : Nat) (pause : Pause) :
    (a.sleep k pause).rename ρ = (a.rename ρ).sleep (ρ k) pause := by
  have hawake : ((a.setStage k .awake).append (.task k)).rename ρ =
      ((a.rename ρ).setStage (ρ k) .awake).append (.task (ρ k)) := by
    rw [append_rename, setStage_rename hρ]
    rfl
  cases pause with
  | none | turn => exact hawake
  | time micros =>
      have hasleep := setStage_rename hρ a k .asleep
      have htasks := congrArg Agenda.tasks hasleep
      simp only [Agenda.sleep, rename, List.map_append, List.map_cons, List.map_nil] at htasks ⊢
      rw [htasks]
      rfl

theorem finish_rename (ha : a.Plain) (k : Nat) : (a.finish k).rename ρ = (a.rename ρ).finish (ρ k) := by
  rw [ha.finish_eq, (ha.rename ρ).finish_eq, setStage_rename hρ]

theorem endTurn_rename (ha : a.Plain) (k : Nat) (pause? : Option Pause) :
    (a.endTurn k pause?).rename ρ = (a.rename ρ).endTurn (ρ k) pause? := by
  cases pause? with
  | none => exact finish_rename hρ ha k
  | some pause => exact sleep_rename hρ a k pause

theorem cancel_rename (ha : a.Plain) (k : Nat) : (a.cancel k).rename ρ = (a.rename ρ).cancel (ρ k) := by
  rw [ha.cancel_eq, (ha.rename ρ).cancel_eq, cancelSimple, cancelSimple, task?_rename hρ]
  cases ht : a.task? k with
  | none => rfl
  | some t =>
      obtain ⟨-, rfl⟩ := task?_mem ht
      obtain ⟨id, work, stage, cancelled⟩ := t
      cases stage with
      | fresh | awake => exact putTask_rename hρ a _
      | asleep =>
          have htasks := congrArg Agenda.tasks (putTask_rename hρ a { id, work, stage := .awake, cancelled := true })
          have halarms : (a.alarms.filter fun x => x.task ≠ id).map (Alarm.rename ρ) =
              (a.alarms.map (Alarm.rename ρ)).filter fun x => x.task ≠ ρ id := by
            rw [List.filter_map]
            congr 2
            funext x
            simp [Alarm.rename, hρ.eq_iff]
          simp only [rename, append, List.map_append, Option.map_some] at htasks ⊢
          rw [htasks, halarms]
          rfl
      | gathering | done => rfl

theorem heeds_rename (ha : a.Plain) (effects : List Effect) :
    (effects.foldl heed a).rename ρ = (effects.map (Effect.rename ρ)).foldl heed (a.rename ρ) := by
  induction effects generalizing a with
  | nil => rfl
  | cons e effects ih =>
      cases e with
      | start task job => exact (ih (ha.start task (.job job))).trans (by rw [start_rename]; rfl)
      | cancel task => exact (ih (ha.cancel task)).trans (by rw [cancel_rename hρ ha]; rfl)
      | «show» state => exact ih ha

end

/-! ## Time -/

theorem soonest_rename (ρ : Nat → Nat) (a : Agenda) : (a.rename ρ).soonest = a.soonest.map (Alarm.rename ρ) :=
  (List.map_mergeSort (f := Alarm.rename ρ) (l := a.alarms) fun _ _ _ _ => rfl).symm

theorem passTo_rename (hρ : Function.Injective ρ) (a : Agenda) (d : Nat) :
    (a.passTo d).rename ρ = (a.rename ρ).passTo d := by
  have hrings : ∀ (xs : List Alarm) (b : Agenda),
      (xs.foldl ring b).rename ρ = (xs.map (Alarm.rename ρ)).foldl ring (b.rename ρ) := by
    intro xs
    induction xs with
    | nil => exact fun _ => rfl
    | cons x xs ih =>
        intro b
        have hone : (b.ring x).rename ρ = (b.rename ρ).ring (x.rename ρ) := by
          rw [ring, append_rename, setStage_rename hρ]
          rfl
        exact (ih _).trans (by rw [hone]; rfl)
  have hfilter : ∀ p : Alarm → Bool, (∀ x, p (x.rename ρ) = p x) →
      (a.rename ρ).soonest.filter p = (a.soonest.filter p).map (Alarm.rename ρ) := by
    intro p hp
    have hsame : p ∘ Alarm.rename ρ = p := funext hp
    rw [soonest_rename, List.filter_map, hsame]
  rw [passTo, passTo, hrings, hfilter _ fun _ => rfl, hfilter _ fun _ => rfl]
  rfl

end Agenda
end Formwork
