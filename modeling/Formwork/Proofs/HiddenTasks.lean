import Formwork.Proofs.Alarms
import Formwork.Proofs.Cancelling

/-!
Agendas that differ in some tasks only, which are hidden: their stages, their turns and their alarms, and every
gathering of them. What happens to a hidden task does not show, and what happens to another one shows in both agendas.
-/

namespace Formwork

/-- The turn of a task that is not hidden. -/
def Turn.shown (hidden : List Nat) : Turn → Bool
  | task id => id ∉ hidden
  | report _ => false

namespace Agenda

/-- Tasks that wait are hidden before they wait for others; jobs never do. -/
structure Hides (hidden : List Nat) (a : Agenda) : Prop where
  distinct : (a.tasks.map (·.id)).Nodup
  jobs : ∀ t ∈ a.tasks, ∀ j, t.work = .job j → ∀ g, t.stage ≠ .gathering g
  begun : ∀ t ∈ a.tasks, t.id ∈ hidden → ∀ w, t.work = .wait w → t.stage ≠ .fresh
  waiters : ∀ g ∈ a.gatherings, g.waiter ∈ hidden
  numbered : a.Numbered

def shownTasks (hidden : List Nat) (a : Agenda) : List Task := a.tasks.filter fun t => t.id ∉ hidden

def shownTurns (hidden : List Nat) (a : Agenda) : List Turn := a.turns.filter (Turn.shown hidden)

/-- When the alarms of the tasks that are not hidden go off, in order. -/
def shownAlarms (hidden : List Nat) (a : Agenda) : List (Nat × Nat) :=
  (a.soonest.filter fun x => x.task ∉ hidden).map fun x => (x.due, x.task)

/-- The agendas differ in hidden tasks only. The clock is left out: it may stop for an alarm of a hidden task. -/
structure Agree (hidden : List Nat) (a b : Agenda) : Prop where
  left : a.Hides hidden
  right : b.Hides hidden
  tasks : a.shownTasks hidden = b.shownTasks hidden
  turns : a.shownTurns hidden = b.shownTurns hidden
  alarms : a.shownAlarms hidden = b.shownAlarms hidden

variable {hidden : List Nat} {a b c : Agenda} {id k : Nat} {t : Task}

theorem Hides.agree (h : a.Hides hidden) : a.Agree hidden a := ⟨h, h, rfl, rfl, rfl⟩

namespace Agree

theorem symm (h : a.Agree hidden b) : b.Agree hidden a :=
  ⟨h.right, h.left, h.tasks.symm, h.turns.symm, h.alarms.symm⟩

theorem trans (h : a.Agree hidden b) (h' : b.Agree hidden c) : a.Agree hidden c :=
  ⟨h.left, h'.right, h.tasks.trans h'.tasks, h.turns.trans h'.turns, h.alarms.trans h'.alarms⟩

/-- One more task is hidden. -/
theorem hide (h : a.Agree hidden b) (ha : ∀ t ∈ a.tasks, t.id = k → ∀ w, t.work = .wait w → t.stage ≠ .fresh)
    (hb : ∀ t ∈ b.tasks, t.id = k → ∀ w, t.work = .wait w → t.stage ≠ .fresh) : a.Agree (k :: hidden) b := by
  have hides : ∀ {c : Agenda}, c.Hides hidden →
      (∀ t ∈ c.tasks, t.id = k → ∀ w, t.work = .wait w → t.stage ≠ .fresh) → c.Hides (k :: hidden) := by
    intro c hc hk
    refine ⟨hc.distinct, hc.jobs, fun t ht hi => ?_, fun g hg => List.mem_cons_of_mem _ (hc.waiters g hg), hc.numbered⟩
    rcases List.mem_cons.mp hi with hi | hi
    · exact hk t ht hi
    · exact hc.begun t ht hi
  have tasks : ∀ c : Agenda, c.shownTasks (k :: hidden) = (c.shownTasks hidden).filter fun t => t.id ≠ k := by
    intro c
    rw [shownTasks, shownTasks, List.filter_filter]
    refine List.filter_congr fun t _ => ?_
    simp [not_or]
  have turns : ∀ c : Agenda, c.shownTurns (k :: hidden) = (c.shownTurns hidden).filter (Turn.shown [k]) := by
    intro c
    rw [shownTurns, shownTurns, List.filter_filter]
    refine List.filter_congr fun t _ => ?_
    cases t <;> simp [Turn.shown, not_or]
  have alarms : ∀ c : Agenda, c.shownAlarms (k :: hidden) = (c.shownAlarms hidden).filter fun x => x.2 ≠ k := by
    intro c
    rw [shownAlarms, shownAlarms, List.filter_map, List.filter_filter]
    refine congrArg _ (List.filter_congr fun x _ => ?_)
    simp [not_or]
  refine ⟨hides h.left ha, hides h.right hb, ?_, ?_, ?_⟩
  · rw [tasks, tasks, h.tasks]
  · rw [turns, turns, h.turns]
  · rw [alarms, alarms, h.alarms]

end Agree

/-! ## Tasks -/

theorem Agree.task?_eq (h : a.Agree hidden b) (hk : k ∉ hidden) : a.task? k = b.task? k := by
  have hf : ∀ c : Agenda, c.task? k = (c.shownTasks hidden).find? fun t => t.id = k := by
    intro c
    rw [shownTasks, List.find?_filter, task?]
    congr 1
    funext t
    by_cases ht : t.id = k <;> simp [ht, hk]
  rw [hf, hf, h.tasks]

/-- A change of tasks that leaves numbers and work alone, and sends no job to wait for others. -/
structure Mild (a : Agenda) (f : Task → Task) : Prop where
  id : ∀ t, (f t).id = t.id
  work : ∀ t, (f t).work = t.work
  stage : ∀ t ∈ a.tasks, (f t).stage = t.stage ∨
    (f t).stage ≠ .fresh ∧ ∀ j, t.work = .job j → ∀ g, (f t).stage ≠ .gathering g

theorem mild_setStage {s : TaskStage} (hf : s ≠ .fresh)
    (hg : ∀ t ∈ a.tasks, t.id = id → ∀ j, t.work = .job j → ∀ g, s ≠ .gathering g) :
    a.Mild fun t => if t.id = id then { t with stage := s } else t where
  id t := by split <;> rfl
  work t := by split <;> rfl
  stage t ht := by
    split
    · next hi => exact .inr ⟨hf, hg t ht hi⟩
    · exact .inl rfl

theorem mild_called (a : Agenda) (id : Nat) : a.Mild (called id) where
  id := called_id id
  work t := by unfold called; split <;> rfl
  stage t _ := by
    by_cases hi : t.id = id
    · by_cases hs : t.stage = .asleep
      · exact .inr (by simp [called, hi, hs])
      · exact .inl (by simp [called, hi, hs])
    · exact .inl (by rw [called, if_neg hi])

theorem Mild.shownTasks {f : Task → Task} (hf : a.Mild f) :
    ({ a with tasks := a.tasks.map f } : Agenda).shownTasks hidden = (a.shownTasks hidden).map f := by
  have hp : ((fun t : Task => decide (t.id ∉ hidden)) ∘ f) = fun t => decide (t.id ∉ hidden) := by
    funext t
    simp [hf.id]
  rw [Agenda.shownTasks, Agenda.shownTasks, List.filter_map, hp]

theorem Hides.map (h : a.Hides hidden) {f : Task → Task} (hf : a.Mild f) :
    ({ a with tasks := a.tasks.map f } : Agenda).Hides hidden := by
  refine ⟨?_, ?_, ?_, h.waiters, ⟨h.numbered.distinct, h.numbered.below⟩⟩
  · rw [List.map_map]
    exact (List.map_congr_left fun t _ => hf.id t) ▸ h.distinct
  · intro u hu j hj g
    obtain ⟨t, ht, rfl⟩ := List.mem_map.mp hu
    rw [hf.work] at hj
    rcases hf.stage t ht with hs | ⟨-, hs⟩
    · exact hs ▸ h.jobs t ht j hj g
    · exact hs j hj g
  · intro u hu hi w hw
    obtain ⟨t, ht, rfl⟩ := List.mem_map.mp hu
    rw [hf.id] at hi
    rw [hf.work] at hw
    rcases hf.stage t ht with hs | ⟨hs, -⟩
    · exact hs ▸ h.begun t ht hi w hw
    · exact hs

theorem Agree.map (h : a.Agree hidden b) {f : Task → Task} (hf : a.Mild f) (hg : b.Mild f) :
    ({ a with tasks := a.tasks.map f } : Agenda).Agree hidden { b with tasks := b.tasks.map f } :=
  ⟨h.left.map hf, h.right.map hg, by rw [hf.shownTasks, hg.shownTasks, h.tasks], h.turns, h.alarms⟩

theorem Hides.map_hidden (h : a.Hides hidden) {f : Task → Task} (hf : a.Mild f) (hid : ∀ t, t.id ∉ hidden → f t = t) :
    a.Agree hidden { a with tasks := a.tasks.map f } := by
  refine ⟨h, h.map hf, ?_, rfl, rfl⟩
  rw [hf.shownTasks]
  refine ((List.map_congr_left fun t ht => ?_).trans (List.map_id _)).symm
  exact hid t (by simpa using (List.mem_filter.mp ht).2)

theorem Agree.setStage (h : a.Agree hidden b) (id : Nat) {s : TaskStage} (hf : s ≠ .fresh)
    (hg : ∀ g, s ≠ .gathering g) : (a.setStage id s).Agree hidden (b.setStage id s) :=
  h.map (mild_setStage hf fun _ _ _ _ _ => hg) (mild_setStage hf fun _ _ _ _ _ => hg)

theorem Hides.setStage (h : a.Hides hidden) (hk : k ∈ hidden) {s : TaskStage} (hf : s ≠ .fresh)
    (hg : ∀ t ∈ a.tasks, t.id = k → ∀ j, t.work = .job j → ∀ g, s ≠ .gathering g) :
    a.Agree hidden (a.setStage k s) := by
  refine h.map_hidden (mild_setStage hf hg) fun t ht => if_neg fun hi => ?_
  exact ht (hi ▸ hk)

theorem setStage_setStage (a : Agenda) (id : Nat) (s r : TaskStage) :
    (a.setStage id s).setStage id r = a.setStage id r := by
  unfold Agenda.setStage
  rw [List.map_map]
  congr 1
  refine List.map_congr_left fun t _ => ?_
  by_cases hi : t.id = id <;> simp [hi]

/-- A task is started; one that waits is not hidden yet. -/
theorem Hides.started (h : a.Hides hidden) (hn : ∀ t ∈ a.tasks, t.id < id) {work : Work}
    (hw : id ∈ hidden → ∃ j, work = .job j) : (a.start id work).Hides hidden := by
  refine ⟨?_, ?_, ?_, h.waiters, ⟨h.numbered.distinct, h.numbered.below⟩⟩
  · change ((a.tasks ++ [({ id, work } : Task)]).map (·.id)).Nodup
    rw [List.map_append]
    refine List.nodup_append.mpr ⟨h.distinct, List.nodup_singleton _, ?_⟩
    intro k hk j hj he
    obtain ⟨t, ht, rfl⟩ := List.mem_map.mp hk
    exact Nat.ne_of_lt (hn t ht) (he.trans (List.mem_singleton.mp hj))
  · intro t ht j hj g
    rcases List.mem_append.mp ht with ht | ht
    · exact h.jobs t ht j hj g
    · rw [List.mem_singleton.mp ht]
      simp
  · intro t ht hi w hwait
    rcases List.mem_append.mp ht with ht | ht
    · exact h.begun t ht hi w hwait
    · rw [List.mem_singleton.mp ht] at hi hwait
      obtain ⟨j, rfl⟩ := hw hi
      cases hwait

theorem Agree.start (h : a.Agree hidden b) (ha : ∀ t ∈ a.tasks, t.id < id) (hb : ∀ t ∈ b.tasks, t.id < id)
    (hid : id ∉ hidden) (work : Work) : (a.start id work).Agree hidden (b.start id work) := by
  have hw : id ∈ hidden → ∃ j, work = .job j := fun hk => absurd hk hid
  have tasks : ∀ c : Agenda, (c.start id work).shownTasks hidden = c.shownTasks hidden ++ [({ id, work } : Task)] := by
    intro c
    simp [shownTasks, Agenda.start, append, hid]
  have turns : ∀ c : Agenda, (c.start id work).shownTurns hidden = c.shownTurns hidden ++ [.task id] := by
    intro c
    simp [shownTurns, Agenda.start, append, Turn.shown, hid]
  exact ⟨h.left.started ha hw, h.right.started hb hw, by rw [tasks, tasks, h.tasks], by rw [turns, turns, h.turns],
    h.alarms⟩

/-- A job is started and hidden. -/
theorem Hides.start (h : a.Hides hidden) (hn : ∀ t ∈ a.tasks, t.id < k) (job : Job) :
    a.Agree (k :: hidden) (a.start k (.job job)) := by
  have hnew : ∀ t ∈ a.tasks, t.id = k → ∀ w, t.work = .wait w → t.stage ≠ .fresh := fun t ht he =>
    absurd he (Nat.ne_of_lt (hn t ht))
  have hleft := (h.agree.hide hnew hnew).left
  refine ⟨hleft, hleft.started hn fun _ => ⟨job, rfl⟩, ?_, ?_, rfl⟩
  · simp [shownTasks, Agenda.start, Agenda.append]
  · simp [shownTurns, Agenda.start, Agenda.append, Turn.shown]

/-! ## Turns -/

theorem Hides.congr (h : a.Hides hidden) (ht : b.tasks = a.tasks) (hg : b.gatherings = a.gatherings)
    (hn : b.Numbered) : b.Hides hidden :=
  ⟨ht ▸ h.distinct, ht ▸ h.jobs, ht ▸ h.begun, hg ▸ h.waiters, hn⟩

theorem Hides.with_turns (h : a.Hides hidden) (turns : List Turn) : ({ a with turns } : Agenda).Hides hidden :=
  h.congr rfl rfl ⟨h.numbered.distinct, h.numbered.below⟩

theorem Agree.with_turns (h : a.Agree hidden b) {xs ys : List Turn}
    (ht : xs.filter (Turn.shown hidden) = ys.filter (Turn.shown hidden)) :
    ({ a with turns := xs } : Agenda).Agree hidden { b with turns := ys } :=
  ⟨h.left.with_turns xs, h.right.with_turns ys, h.tasks, ht, h.alarms⟩

theorem Agree.append (h : a.Agree hidden b) (turn : Turn) : (a.append turn).Agree hidden (b.append turn) := by
  refine h.with_turns ?_
  rw [List.filter_append, List.filter_append]
  exact congrArg (· ++ _) h.turns

theorem Hides.append (h : a.Hides hidden) (turn : Turn) (ht : turn.shown hidden = false) :
    a.Agree hidden (a.append turn) := by
  refine h.agree.with_turns ?_
  simp [ht]

theorem Hides.reports (h : a.Hides hidden) (gs : List Nat) :
    a.Agree hidden (gs.foldl (fun a g => a.append (.report g)) a) := by
  induction gs generalizing a with
  | nil => exact h.agree
  | cons g gs ih =>
      have hone := h.append (.report g) rfl
      exact hone.trans (ih hone.right)

/-! ## Alarms -/

theorem shownAlarms_append (h : a.Numbered) (due : Nat) :
    ({ a with alarms := a.alarms ++ [⟨due, a.serial, id⟩], serial := a.serial + 1 } : Agenda).shownAlarms hidden =
      if id ∈ hidden then a.shownAlarms hidden
      else ((a.shownAlarms hidden).filter fun x => x.1 ≤ due) ++ (due, id) ::
        (a.shownAlarms hidden).filter fun x => !decide (x.1 ≤ due) := by
  have hn := h.append due id
  by_cases hi : id ∈ hidden
  · have hf := soonest_filter hn fun x => x.task ∉ hidden
    have he : (a.alarms ++ [(⟨due, a.serial, id⟩ : Alarm)]).filter (fun x => x.task ∉ hidden) =
        a.alarms.filter fun x => x.task ∉ hidden := by
      simp [hi]
    rw [if_pos hi, shownAlarms, shownAlarms, ← hf, ← soonest_filter h]
    simp only [he]
    rfl
  · rw [if_neg hi, shownAlarms, shownAlarms, soonest_append h (Nat.le_refl _), List.filter_append,
      List.filter_cons_of_pos (by simpa using hi), List.map_append, List.map_cons, List.filter_map, List.filter_map,
      List.filter_filter, List.filter_filter, List.filter_filter, List.filter_filter]
    congr 2
    · simp [Bool.and_comm]
    · simp [Bool.and_comm]

theorem Hides.with_alarm (h : a.Hides hidden) (due : Nat) :
    ({ a with alarms := a.alarms ++ [⟨due, a.serial, id⟩], serial := a.serial + 1 } : Agenda).Hides hidden :=
  h.congr rfl rfl (h.numbered.append due id)

theorem Agree.with_alarm (h : a.Agree hidden b) (due id : Nat) :
    ({ a with alarms := a.alarms ++ [⟨due, a.serial, id⟩], serial := a.serial + 1 } : Agenda).Agree hidden
      { b with alarms := b.alarms ++ [⟨due, b.serial, id⟩], serial := b.serial + 1 } := by
  refine ⟨h.left.with_alarm due, h.right.with_alarm due, h.tasks, h.turns, ?_⟩
  rw [shownAlarms_append h.left.numbered, shownAlarms_append h.right.numbered, h.alarms]

theorem Hides.with_hidden_alarm (h : a.Hides hidden) (due : Nat) (hk : k ∈ hidden) :
    a.Agree hidden { a with alarms := a.alarms ++ [⟨due, a.serial, k⟩], serial := a.serial + 1 } := by
  refine ⟨h, h.with_alarm due, rfl, rfl, ?_⟩
  rw [shownAlarms_append h.numbered, if_pos hk]

theorem Hides.without_alarm (h : a.Hides hidden) (k : Nat) :
    ({ a with alarms := a.alarms.filter fun x => x.task ≠ k } : Agenda).Hides hidden :=
  h.congr rfl rfl (h.numbered.of_sublist ⟨_, List.Perm.refl _, List.filter_sublist⟩ rfl)

theorem shownAlarms_without (h : a.Numbered) (k : Nat) :
    ({ a with alarms := a.alarms.filter fun x => x.task ≠ k } : Agenda).shownAlarms hidden =
      (a.shownAlarms hidden).filter fun x => x.2 ≠ k := by
  rw [shownAlarms, shownAlarms, soonest_filter h, List.filter_map, List.filter_filter, List.filter_filter]
  congr 2
  funext x
  simp [Bool.and_comm]

theorem Agree.without_alarm (h : a.Agree hidden b) (k : Nat) :
    ({ a with alarms := a.alarms.filter fun x => x.task ≠ k } : Agenda).Agree hidden
      { b with alarms := b.alarms.filter fun x => x.task ≠ k } := by
  refine ⟨h.left.without_alarm k, h.right.without_alarm k, h.tasks, h.turns, ?_⟩
  rw [shownAlarms_without h.left.numbered, shownAlarms_without h.right.numbered, h.alarms]

theorem Hides.without_hidden_alarm (h : a.Hides hidden) (hk : k ∈ hidden) :
    a.Agree hidden { a with alarms := a.alarms.filter fun x => x.task ≠ k } := by
  refine ⟨h, h.without_alarm k, rfl, rfl, ?_⟩
  rw [shownAlarms_without h.numbered, List.filter_eq_self.mpr]
  intro x hx
  obtain ⟨y, hy, rfl⟩ := List.mem_map.mp hx
  have hy : y.task ∉ hidden := by simpa using (List.mem_filter.mp hy).2
  refine decide_eq_true fun he => hy ?_
  rw [show y.task = k from he]
  exact hk

end Agenda
end Formwork
