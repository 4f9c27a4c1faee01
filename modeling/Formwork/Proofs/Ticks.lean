import Formwork.Proofs.HiddenTurns
import Formwork.Proofs.JobTurns

/-!
One task that waits out a pause, on an agenda where nobody waits for others. What happens to other tasks leaves it alone;
it sleeps from its first turn on, and is woken when its pause is over.
-/

namespace Formwork

namespace Agenda

variable {a b c : Agenda} {j k d since pause : Nat} {t : Task} {work : Work} {effects : List Effect}

/-! ## Agendas without gatherings -/

structure Plain (a : Agenda) : Prop where
  gatherings : a.gatherings = []
  stages : ∀ t ∈ a.tasks, ∀ g, t.stage ≠ .gathering g
  turns : ∀ turn ∈ a.turns, ∃ k, turn = .task k

namespace Plain

theorem congr (h : a.Plain) (hg : b.gatherings = a.gatherings) (ht : b.tasks = a.tasks)
    (hturns : ∀ turn ∈ b.turns, turn ∈ a.turns) : b.Plain :=
  ⟨hg.trans h.gatherings, ht ▸ h.stages, fun turn hm => h.turns turn (hturns turn hm)⟩

theorem append (h : a.Plain) (k : Nat) : (a.append (.task k)).Plain := by
  refine ⟨h.gatherings, h.stages, fun turn ht => ?_⟩
  rcases List.mem_append.mp ht with ht | ht
  · exact h.turns turn ht
  · exact ⟨k, List.mem_singleton.mp ht⟩

theorem map (h : a.Plain) (f : Task → Task) (hf : ∀ t ∈ a.tasks, ∀ g, (f t).stage ≠ .gathering g) :
    ({ a with tasks := a.tasks.map f } : Agenda).Plain := by
  refine ⟨h.gatherings, fun t ht => ?_, h.turns⟩
  obtain ⟨u, hu, rfl⟩ := List.mem_map.mp ht
  exact hf u hu

theorem setStage (h : a.Plain) (id : Nat) {s : TaskStage} (hs : ∀ g, s ≠ .gathering g) : (a.setStage id s).Plain := by
  refine h.map _ fun t ht g => ?_
  split
  · exact hs g
  · exact h.stages t ht g

theorem start (h : a.Plain) (id : Nat) (work : Work) : (a.start id work).Plain := by
  have hadd : ({ a with tasks := a.tasks ++ [({ id, work } : Task)] } : Agenda).Plain := by
    refine ⟨h.gatherings, fun t ht g => ?_, h.turns⟩
    rcases List.mem_append.mp ht with ht | ht
    · exact h.stages t ht g
    · rw [List.mem_singleton.mp ht]
      simp
  exact hadd.append id

theorem finish_eq (h : a.Plain) (id : Nat) : a.finish id = a.setStage id .done := by
  rw [Agenda.finish, h.gatherings]
  rfl

theorem finish (h : a.Plain) (id : Nat) : (a.finish id).Plain := h.finish_eq id ▸ h.setStage id (by simp)

theorem sleep (h : a.Plain) (id : Nat) (p : Pause) : (a.sleep id p).Plain := by
  cases p with
  | time micros => exact (h.setStage id (s := .asleep) (by simp)).congr rfl rfl fun _ hm => hm
  | none | turn => exact (h.setStage id (s := .awake) (by simp)).append id

theorem cancel_eq (h : a.Plain) (id : Nat) : a.cancel id = a.cancelSimple id := by
  unfold Agenda.cancel
  cases ht : a.task? id with
  | none => simp [cancelSimple, ht]
  | some t =>
      simp only
      split
      · next g hs => exact absurd hs (h.stages t (task?_mem ht).1 g)
      · rfl

theorem cancel (h : a.Plain) (id : Nat) : (a.cancel id).Plain := by
  have hput : ∀ {t : Task}, (∀ g, t.stage ≠ .gathering g) → (a.putTask t).Plain := by
    intro t ht
    refine h.map _ fun u hu g => ?_
    split
    · exact ht g
    · exact h.stages u hu g
  rw [h.cancel_eq, cancelSimple]
  split
  · exact h
  · next t ht =>
      have hstage := h.stages t (task?_mem ht).1
      split
      · exact hput hstage
      · exact hput hstage
      · have hwoken := (hput (t := { t with stage := .awake, cancelled := true }) (by simp)).append id
        exact hwoken.congr rfl rfl fun _ hm => hm
      · exact h
      · exact h

theorem heeds (h : a.Plain) (effects : List Effect) : (effects.foldl heed a).Plain := by
  induction effects generalizing a with
  | nil => exact h
  | cons e effects ih =>
      cases e with
      | start task job => exact ih (h.start task (.job job))
      | cancel task => exact ih (h.cancel task)
      | «show» state => exact ih h

theorem rings (h : a.Plain) (xs : List Alarm) : (xs.foldl ring a).Plain := by
  induction xs generalizing a with
  | nil => exact h
  | cons x xs ih => exact ih ((h.setStage x.task (s := .awake) (by simp)).append x.task)

theorem passTo (h : a.Plain) (d : Nat) : (a.passTo d).Plain := by
  refine Plain.rings ?_ _
  exact h.congr rfl rfl fun _ hm => hm

/-- The next turn is taken from the list. -/
theorem pop (h : a.Plain) {turn : Turn} {rest : List Turn} (ht : a.turns = turn :: rest) :
    ({ a with turns := rest } : Agenda).Plain :=
  h.congr rfl rfl fun _ hm => ht ▸ List.mem_cons_of_mem _ hm

end Plain

/-! ## What leaves a task alone -/

structure Spares (k : Nat) (a b : Agenda) : Prop where
  task : b.task? k = a.task? k
  turns : .task k ∈ a.turns → .task k ∈ b.turns
  alarms : ∀ x ∈ a.alarms, x.task = k → x ∈ b.alarms
  now : b.now = a.now

namespace Spares

theorem refl (k : Nat) (a : Agenda) : Spares k a a := ⟨rfl, fun h => h, fun _ hx _ => hx, rfl⟩

theorem trans (h : Spares k a b) (h' : Spares k b c) : Spares k a c :=
  ⟨h'.task.trans h.task, fun ht => h'.turns (h.turns ht), fun x hx hk => h'.alarms x (h.alarms x hx hk) hk,
    h'.now.trans h.now⟩

theorem map (f : Task → Task) (hid : ∀ t, (f t).id = t.id) (hf : ∀ t, t.id = k → f t = t) :
    Spares k a { a with tasks := a.tasks.map f } := by
  refine ⟨?_, fun h => h, fun _ hx _ => hx, rfl⟩
  rw [task?_map a f hid]
  cases ht : a.task? k with
  | none => rfl
  | some t => exact congrArg some (hf t (task?_mem ht).2)

theorem setStage (hj : j ≠ k) (s : TaskStage) : Spares k a (a.setStage j s) := by
  refine map _ (fun t => ?_) fun t ht => ?_
  · split <;> rfl
  · exact if_neg fun he => hj (he.symm.trans ht)

theorem append (turn : Turn) : Spares k a (a.append turn) :=
  ⟨rfl, fun h => List.mem_append_left _ h, fun _ hx _ => hx, rfl⟩

theorem start (hk : (a.task? k).isSome) (id : Nat) (work : Work) : Spares k a (a.start id work) :=
  ⟨task?_append hk _, fun h => List.mem_append_left _ h, fun _ hx _ => hx, rfl⟩

theorem sleep (hj : j ≠ k) (p : Pause) : Spares k a (a.sleep j p) := by
  have hawake : Spares k a ((a.setStage j .awake).append (.task j)) := (setStage hj .awake).trans (append _)
  cases p with
  | none | turn => exact hawake
  | time micros =>
      have hasleep : Spares k a (a.setStage j .asleep) := setStage hj .asleep
      exact ⟨hasleep.task, hasleep.turns, fun x hx hk => List.mem_append_left _ hx, rfl⟩

theorem finish (ha : a.Plain) (hj : j ≠ k) : Spares k a (a.finish j) := ha.finish_eq j ▸ setStage hj .done

theorem cancel (ha : a.Plain) (hj : j ≠ k) : Spares k a (a.cancel j) := by
  have hput : ∀ t : Task, t.id = j → Spares k a (a.putTask t) := by
    intro t ht
    refine map _ (fun u => ?_) fun u hu => if_neg fun he => hj (ht.symm.trans (he.symm.trans hu))
    split
    · next he => exact he.symm
    · rfl
  rw [ha.cancel_eq, cancelSimple]
  split
  · exact refl k a
  · next t ht =>
      obtain ⟨-, hid⟩ := task?_mem ht
      split
      · exact hput _ hid
      · exact hput _ hid
      · have hwoken := (hput { t with stage := .awake, cancelled := true } hid).trans (append (.task j))
        refine ⟨hwoken.task, hwoken.turns, fun x hx hk => List.mem_filter.mpr ⟨hx, ?_⟩, hwoken.now⟩
        simpa [hk] using Ne.symm hj
      · exact refl k a
      · exact refl k a

theorem heeds (ha : a.Plain) (hk : (a.task? k).isSome) (hc : .cancel k ∉ effects) :
    Spares k a (effects.foldl heed a) := by
  induction effects generalizing a with
  | nil => exact refl k a
  | cons e effects ih =>
      rw [List.mem_cons, not_or] at hc
      obtain ⟨he, hc⟩ := hc
      cases e with
      | start task job =>
          have hone := start hk task (.job job)
          exact hone.trans (ih (ha.start task _) (hone.task ▸ hk) hc)
      | cancel task =>
          have hone := cancel ha (j := task) fun ht => he (ht ▸ rfl)
          exact hone.trans (ih (ha.cancel task) (hone.task ▸ hk) hc)
      | «show» state => exact ih ha hk hc

theorem endTurn (ha : a.Plain) (hj : j ≠ k) (pause? : Option Pause) : Spares k a (a.endTurn j pause?) := by
  cases pause? with
  | none => exact finish ha hj
  | some pause => exact sleep hj pause

theorem rings {xs : List Alarm} (hx : ∀ x ∈ xs, x.task ≠ k) : Spares k a (xs.foldl ring a) := by
  induction xs generalizing a with
  | nil => exact refl k a
  | cons x xs ih =>
      have hone : Spares k a (a.ring x) := (setStage (hx x (List.mem_cons_self ..)) .awake).trans (append _)
      exact hone.trans (ih fun y hy => hx y (List.mem_cons_of_mem _ hy))

/-- The turn of another task is taken from the list. -/
theorem pop {rest : List Turn} {turn : Turn} (ht : a.turns = turn :: rest) (hk : turn ≠ .task k) :
    Spares k a { a with turns := rest } := by
  refine ⟨rfl, fun h => ?_, fun _ hx _ => hx, rfl⟩
  rw [ht] at h
  exact (List.mem_cons.mp h).resolve_left fun he => hk he.symm

end Spares

/-! ## A task that waits out a pause -/

/-- The pause is to begin at once, the task sleeps, or the pause has just ended. -/
inductive Ticks (k : Nat) (work : Work) (since pause : Nat) (a : Agenda) : Prop
  | fresh (ht : a.task? k = some { id := k, work }) (hturn : .task k ∈ a.turns) (hnow : a.now = since)
  | asleep (ht : a.task? k = some { id := k, work, stage := .asleep })
      (halarm : ∃ x ∈ a.alarms, x.task = k ∧ x.due = since + pause) (hnow : a.now < since + pause)
  | awake (ht : a.task? k = some { id := k, work, stage := .awake }) (hturn : .task k ∈ a.turns)
      (hnow : a.now = since + pause)

namespace Ticks

theorem task (h : a.Ticks k work since pause) :
    ∃ s, a.task? k = some { id := k, work, stage := s } ∧ s ≠ .done := by
  cases h with
  | fresh ht => exact ⟨_, ht, by simp⟩
  | asleep ht => exact ⟨_, ht, by simp⟩
  | awake ht => exact ⟨_, ht, by simp⟩

theorem isSome (h : a.Ticks k work since pause) : (a.task? k).isSome := by
  obtain ⟨s, hs, -⟩ := h.task
  exact Option.isSome_iff_exists.mpr ⟨_, hs⟩

theorem frame (h : a.Ticks k work since pause) (hs : Spares k a b) : b.Ticks k work since pause := by
  cases h with
  | fresh ht hturn hnow => exact .fresh (hs.task.trans ht) (hs.turns hturn) (hs.now.trans hnow)
  | asleep ht halarm hnow =>
      obtain ⟨x, hx, hk, hd⟩ := halarm
      exact .asleep (hs.task.trans ht) ⟨x, hs.alarms x hx hk, hk, hd⟩ (hs.now ▸ hnow)
  | awake ht hturn hnow => exact .awake (hs.task.trans ht) (hs.turns hturn) (hs.now.trans hnow)

/-- When no turn is left, the pause is under way. -/
theorem now_lt (h : a.Ticks k work since pause) (ht : a.turns = []) : a.now < since + pause := by
  cases h with
  | fresh _ hturn => simp [ht] at hturn
  | asleep _ _ hnow => exact hnow
  | awake _ hturn => simp [ht] at hturn

theorem of_start (hn : ∀ t ∈ a.tasks, t.id ≠ k) (work : Work) (pause : Nat) :
    (a.start k work).Ticks k work a.now pause := by
  refine .fresh ?_ (List.mem_append_right _ (List.mem_singleton_self _)) rfl
  have hnone : a.task? k = none := List.find?_eq_none.mpr fun t ht => by simpa using hn t ht
  rw [task?] at hnone
  rw [task?, Agenda.start, append, List.find?_append, hnone]
  simp

/-- Its first turn is taken. -/
theorem of_sleep (ht : a.task? k = some { id := k, work }) (hp : 0 < pause) :
    (a.sleep k (.time pause)).Ticks k work a.now pause := by
  refine .asleep ?_ ⟨⟨a.now + pause, a.serial, k⟩, List.mem_append_right _ (List.mem_singleton_self _), rfl, rfl⟩ ?_
  · change (a.setStage k .asleep).task? k = _
    rw [Agenda.setStage, task?_map, ht]
    · simp
    · intro t
      split <;> rfl
  · exact Nat.lt_add_of_pos_right hp

theorem clock (h : a.Ticks k work since pause) (ht : a.turns = []) {time : Nat} (hd : ∀ x ∈ a.alarms, time < x.due) :
    ({ a with now := max a.now time } : Agenda).Ticks k work since pause := by
  cases h with
  | fresh _ hturn => simp [ht] at hturn
  | awake _ hturn => simp [ht] at hturn
  | asleep hs halarm hnow =>
      obtain ⟨x, hx, hk, hdue⟩ := halarm
      have hlt := hd x hx
      exact .asleep hs ⟨x, hx, hk, hdue⟩ (show max a.now time < since + pause by omega)

theorem task?_ring (a : Agenda) (x : Alarm) (k : Nat) :
    (a.ring x).task? k = (a.task? k).map fun t => if t.id = x.task then { t with stage := .awake } else t := by
  refine task?_map _ _ (fun t => ?_) k
  split <;> rfl

/-- A task that is woken stays so when other alarms go off. -/
theorem rings_awake {xs : List Alarm} (ht : a.task? k = some { id := k, work, stage := .awake })
    (hturn : .task k ∈ a.turns) : (xs.foldl ring a).task? k = some { id := k, work, stage := .awake } ∧
      .task k ∈ (xs.foldl ring a).turns := by
  induction xs generalizing a with
  | nil => exact ⟨ht, hturn⟩
  | cons x xs ih =>
      refine ih ?_ (List.mem_append_left _ hturn)
      rw [task?_ring, ht]
      by_cases hx : k = x.task <;> simp [hx]

/-- One of the alarms that go off is that of the task. -/
theorem rings_wake {xs : List Alarm} {s : TaskStage} (ht : a.task? k = some { id := k, work, stage := s })
    (hx : ∃ x ∈ xs, x.task = k) : (xs.foldl ring a).task? k = some { id := k, work, stage := .awake } ∧
      .task k ∈ (xs.foldl ring a).turns := by
  induction xs generalizing a with
  | nil => simp at hx
  | cons x xs ih =>
      by_cases hk : x.task = k
      · subst hk
        refine rings_awake (a := a.ring x) ?_ (List.mem_append_right _ (List.mem_singleton_self _))
        rw [task?_ring, ht]
        simp
      · have hone : Spares k a (a.ring x) := (Spares.setStage hk .awake).trans (.append _)
        obtain ⟨y, hy, hyk⟩ := hx
        exact ih (hone.task.trans ht) ⟨y, (List.mem_cons.mp hy).resolve_left fun he => hk (he ▸ hyk), hyk⟩

theorem passTo (h : a.Ticks k work since pause) (ht : a.turns = []) (ho : (a.alarms.map (·.task)).Nodup)
    (hd : ∀ x ∈ a.alarms, d ≤ x.due) : (a.passTo d).Ticks k work since pause := by
  cases h with
  | fresh _ hturn => simp [ht] at hturn
  | awake _ hturn => simp [ht] at hturn
  | asleep hs halarm hnow =>
      obtain ⟨x, hx, hk, hdue⟩ := halarm
      have hle := hd x hx
      by_cases he : x.due = d
      · -- its alarm goes off, perhaps among others
        have hmem : x ∈ a.soonest.filter fun y => y.due = d :=
          List.mem_filter.mpr ⟨a.soonest_perm.mem_iff.mpr hx, decide_eq_true he⟩
        obtain ⟨htask, hturns⟩ := rings_wake (a := { a with
          now := max a.now d, alarms := a.soonest.filter fun y => !decide (y.due = d) }) hs ⟨x, hmem, hk⟩
        refine .awake htask hturns ?_
        rw [passTo_now]
        omega
      · -- others go off
        have hothers : ∀ y ∈ a.soonest.filter fun y => y.due = d, y.task ≠ k := by
          intro y hy hyk
          obtain ⟨hy, hyd⟩ := List.mem_filter.mp hy
          have hyx := List.inj_on_of_nodup_map ho (a.soonest_perm.mem_iff.mp hy) hx (hyk.trans hk.symm)
          rw [hyx] at hyd
          exact he (by simpa using hyd)
        have hspared := Spares.rings (a := { a with
          now := max a.now d, alarms := a.soonest.filter fun y => !decide (y.due = d) }) hothers
        refine .asleep (hspared.task.trans hs) ⟨x, hspared.alarms x ?_ hk, hk, hdue⟩ ?_
        · exact List.mem_filter.mpr ⟨a.soonest_perm.mem_iff.mpr hx, by simpa using he⟩
        · rw [passTo_now]
          omega

end Ticks

end Agenda
end Formwork
