import Formwork.Proofs.Gatherings
import Formwork.Proofs.HiddenTasks

/-!
What happens to the tasks of agendas that agree: a task sleeps, ends, is cancelled, waits for others or is woken. Two
agendas agree after it, and an agenda agrees with itself after it happened to a hidden task.
-/

namespace Formwork

namespace Agenda

variable {hidden : List Nat} {a b : Agenda} {id k : Nat} {t : Task}

/-! ## Turns that end -/

theorem Agree.sleep (h : a.Agree hidden b) (hn : a.now = b.now) (id : Nat) (pause : Pause) :
    (a.sleep id pause).Agree hidden (b.sleep id pause) := by
  have awake := (h.setStage id (s := .awake) (by simp) (by simp)).append (.task id)
  cases pause with
  | none => exact awake
  | turn => exact awake
  | time micros =>
      have asleep := (h.setStage id (s := .asleep) (by simp) (by simp)).with_alarm (a.now + micros) id
      rw [Agenda.sleep, Agenda.sleep, ← hn]
      exact asleep

theorem Hides.sleep (h : a.Hides hidden) (hk : k ∈ hidden) (pause : Pause) : a.Agree hidden (a.sleep k pause) := by
  have hawake := h.setStage hk (s := .awake) (by simp) (by simp)
  have awake := hawake.trans (hawake.right.append (.task k) (by simp [Turn.shown, hk]))
  cases pause with
  | none => exact awake
  | turn => exact awake
  | time micros =>
      have hasleep := h.setStage hk (s := .asleep) (by simp) (by simp)
      exact hasleep.trans (hasleep.right.with_hidden_alarm (a.now + micros) hk)

theorem sleep_now (a : Agenda) (id : Nat) (pause : Pause) : (a.sleep id pause).now = a.now := by
  cases pause <;> rfl

theorem reports_now (gs : List Nat) (a : Agenda) : (gs.foldl (fun a g => a.append (.report g)) a).now = a.now := by
  induction gs generalizing a with
  | nil => rfl
  | cons g gs ih => exact ih (a.append (.report g))

theorem finish_eq (a : Agenda) (id : Nat) : a.finish id =
    ((a.gatherings.filter fun g => g.children.contains id).map (·.id)).foldl (fun a g => a.append (.report g))
      (a.setStage id .done) := by
  rw [List.foldl_map]
  rfl

theorem finish_now (a : Agenda) (id : Nat) : (a.finish id).now = a.now := by
  rw [finish_eq]
  exact reports_now ..

theorem Agree.finish (h : a.Agree hidden b) (id : Nat) : (a.finish id).Agree hidden (b.finish id) := by
  have hs := h.setStage id (s := .done) (by simp) (by simp)
  rw [finish_eq, finish_eq]
  exact ((hs.left.reports _).symm.trans hs).trans (hs.right.reports _)

theorem Hides.finish (h : a.Hides hidden) (hk : k ∈ hidden) : a.Agree hidden (a.finish k) := by
  have hs := h.setStage hk (s := .done) (by simp) (by simp)
  rw [finish_eq]
  exact hs.trans (hs.right.reports _)

theorem cancelSimple_now (a : Agenda) (id : Nat) : (a.cancelSimple id).now = a.now := by
  unfold cancelSimple
  split
  · rfl
  · split <;> rfl

theorem cancels_now (ks : List Nat) (a : Agenda) : (ks.foldl Agenda.cancel a).now = a.now := by
  have simple : ∀ (ks : List Nat) (a : Agenda), (ks.foldl cancelSimple a).now = a.now := by
    intro ks
    induction ks with
    | nil => exact fun _ => rfl
    | cons k ks ih => exact fun a => (ih _).trans (cancelSimple_now a k)
  have one : ∀ (a : Agenda) k, (a.cancel k).now = a.now := by
    intro a k
    unfold Agenda.cancel
    split
    · rfl
    · split
      · exact simple _ _
      · exact cancelSimple_now a k
  induction ks generalizing a with
  | nil => rfl
  | cons k ks ih => exact (ih _).trans (one a k)

theorem cancel_eq (hd : (a.tasks.map (·.id)).Nodup) (ht : t ∈ a.tasks) (hg : ∀ g, t.stage ≠ .gathering g) :
    a.cancel t.id =
      if t.stage = .done then a
      else if t.stage = .asleep then
        { ({ a with tasks := a.tasks.map (called t.id) } : Agenda).append (.task t.id) with
          alarms := a.alarms.filter fun x => x.task ≠ t.id }
      else { a with tasks := a.tasks.map (called t.id) } := by
  rcases cancel_job hd ht hg with ⟨hs, hc⟩ | ⟨hs | hs, hc⟩ | ⟨hs, hc⟩ <;> simp [hs, hc]

theorem Hides.cancel (h : a.Hides hidden) (hk : k ∈ hidden) (hj : ∀ x ∈ a.roster, x.1 = k → ∃ j, x.2 = .job j) :
    a.Agree hidden (a.cancel k) := by
  cases ht : a.task? k with
  | none =>
      have he : a.cancel k = a := by simp [Agenda.cancel, ht]
      rw [he]
      exact h.agree
  | some t =>
      obtain ⟨hm, rfl⟩ := task?_mem ht
      obtain ⟨j, hw⟩ := hj (t.id, t.work) (List.mem_map_of_mem hm) rfl
      have hcalled : a.Agree hidden { a with tasks := a.tasks.map (called t.id) } := by
        refine h.map_hidden (mild_called _ t.id) fun u hu => if_neg fun hi => hu ?_
        rw [hi]
        exact hk
      rw [cancel_eq h.distinct hm (h.jobs t hm j hw)]
      split
      · exact h.agree
      · split
        · have happ := hcalled.trans (hcalled.right.append (.task t.id) (by simp [Turn.shown, hk]))
          exact happ.trans (happ.right.without_hidden_alarm hk)
        · exact hcalled

/-- A job is cancelled on both agendas, whether it is hidden or not. -/
theorem Agree.cancel (h : a.Agree hidden b) (k : Nat) (ha : ∀ x ∈ a.roster, x.1 = k → ∃ j, x.2 = .job j)
    (hb : ∀ x ∈ b.roster, x.1 = k → ∃ j, x.2 = .job j) : (a.cancel k).Agree hidden (b.cancel k) := by
  by_cases hk : k ∈ hidden
  · exact ((h.left.cancel hk ha).symm.trans h).trans (h.right.cancel hk hb)
  · have hsame := h.task?_eq hk
    cases ht : a.task? k with
    | none =>
        have he : a.cancel k = a := by simp [Agenda.cancel, ht]
        have he' : b.cancel k = b := by simp [Agenda.cancel, ← hsame, ht]
        rw [he, he']
        exact h
    | some t =>
        obtain ⟨hm', -⟩ := task?_mem (hsame ▸ ht)
        obtain ⟨hm, rfl⟩ := task?_mem ht
        obtain ⟨j, hw⟩ := ha (t.id, t.work) (List.mem_map_of_mem hm) rfl
        have hg := h.left.jobs t hm j hw
        have hcalled := h.map (mild_called a t.id) (mild_called b t.id)
        rw [cancel_eq h.left.distinct hm hg, cancel_eq h.right.distinct hm' hg]
        split
        · exact h
        · split
          · exact (hcalled.append (.task t.id)).without_alarm t.id
          · exact hcalled

theorem Hides.roster_cancel (h : a.Hides hidden) (hj : ∀ x ∈ a.roster, x.1 = k → ∃ j, x.2 = .job j) :
    (a.cancel k).roster = a.roster := by
  cases ht : a.task? k with
  | none =>
      have he : a.cancel k = a := by simp [Agenda.cancel, ht]
      rw [he]
  | some t =>
      obtain ⟨hm, rfl⟩ := task?_mem ht
      obtain ⟨j, hw⟩ := hj (t.id, t.work) (List.mem_map_of_mem hm) rfl
      have hcalled : ({ a with tasks := a.tasks.map (called t.id) } : Agenda).roster = a.roster :=
        roster_map _ fun u _ => ⟨called_id t.id u, (mild_called a t.id).work u⟩
      rw [cancel_eq h.distinct hm (h.jobs t hm j hw)]
      split
      · rfl
      · split <;> exact hcalled

theorem Hides.cancels_roster (h : a.Hides hidden) {ks : List Nat}
    (hj : ∀ k ∈ ks, ∀ x ∈ a.roster, x.1 = k → ∃ j, x.2 = .job j) : (ks.foldl Agenda.cancel a).roster = a.roster := by
  induction ks generalizing a with
  | nil => rfl
  | cons k ks ih =>
      have hk := hj k (List.mem_cons_self ..)
      have hr := h.roster_cancel hk
      have hrest := ih (h.agree.cancel k hk hk).left fun i hi x hx => hj i (List.mem_cons_of_mem _ hi) x (hr ▸ hx)
      exact hrest.trans hr

theorem Agree.cancels (h : a.Agree hidden b) (ks : List Nat)
    (ha : ∀ k ∈ ks, ∀ x ∈ a.roster, x.1 = k → ∃ j, x.2 = .job j)
    (hb : ∀ k ∈ ks, ∀ x ∈ b.roster, x.1 = k → ∃ j, x.2 = .job j) :
    (ks.foldl Agenda.cancel a).Agree hidden (ks.foldl Agenda.cancel b) := by
  induction ks generalizing a b with
  | nil => exact h
  | cons k ks ih =>
      have hak := ha k (List.mem_cons_self ..)
      have hbk := hb k (List.mem_cons_self ..)
      refine ih (h.cancel k hak hbk) (fun i hi x hx => ?_) fun i hi x hx => ?_
      · exact ha i (List.mem_cons_of_mem _ hi) x (h.left.roster_cancel hak ▸ hx)
      · exact hb i (List.mem_cons_of_mem _ hi) x (h.right.roster_cancel hbk ▸ hx)

theorem Hides.cancels (h : a.Hides hidden) (ks : List Nat) (hk : ∀ k ∈ ks, k ∈ hidden)
    (hj : ∀ k ∈ ks, ∀ x ∈ a.roster, x.1 = k → ∃ j, x.2 = .job j) : a.Agree hidden (ks.foldl Agenda.cancel a) := by
  induction ks generalizing a with
  | nil => exact h.agree
  | cons k ks ih =>
      have hone := h.cancel (hk k (List.mem_cons_self ..)) (hj k (List.mem_cons_self ..))
      have hr := h.roster_cancel (hj k (List.mem_cons_self ..))
      refine hone.trans (ih hone.right (fun i hi => hk i (List.mem_cons_of_mem _ hi)) fun i hi x hx => ?_)
      exact hj i (List.mem_cons_of_mem _ hi) x (hr ▸ hx)

/-- Beside the same jobs, hidden ones are cancelled on each of the agendas. -/
theorem Agree.cancels_append (h : a.Agree hidden b) (ks : List Nat) {js js' : List Nat} (hjs : ∀ k ∈ js, k ∈ hidden)
    (hjs' : ∀ k ∈ js', k ∈ hidden) (ha : ∀ k ∈ ks ++ js, ∀ x ∈ a.roster, x.1 = k → ∃ j, x.2 = .job j)
    (hb : ∀ k ∈ ks ++ js', ∀ x ∈ b.roster, x.1 = k → ∃ j, x.2 = .job j) :
    ((ks ++ js).foldl Agenda.cancel a).Agree hidden ((ks ++ js').foldl Agenda.cancel b) := by
  have hka := fun k hk => ha k (List.mem_append_left js hk)
  have hkb := fun k hk => hb k (List.mem_append_left js' hk)
  have hks := h.cancels ks hka hkb
  have hl := hks.left.cancels js hjs fun k hk x hx =>
    ha k (List.mem_append_right ks hk) x (h.left.cancels_roster hka ▸ hx)
  have hr := hks.right.cancels js' hjs' fun k hk x hx =>
    hb k (List.mem_append_right ks hk) x (h.right.cancels_roster hkb ▸ hx)
  rw [List.foldl_append, List.foldl_append]
  exact (hl.symm.trans hks).trans hr

/-! ## Waiting for others -/

/-- A task that waits ends, or waits for others. -/
def leave (a : Agenda) (id : Nat) (stage : TaskStage) (gatherings : List Gathering) (reports : List Nat) : Agenda :=
  reports.foldl (fun a g => a.append (.report g))
    { a.setStage id stage with gatherings := a.gatherings ++ gatherings }

theorem finish_leave (a : Agenda) (id : Nat) : ∃ reports, a.finish id = a.leave id .done [] reports := by
  refine ⟨(a.gatherings.filter fun g => g.children.contains id).map (·.id), ?_⟩
  rw [finish_eq, leave, List.append_nil]
  rfl

theorem gather_leave (a : Agenda) (id : Nat) (children : List Nat) :
    ∃ g reports, g.waiter = id ∧ a.gather id children = a.leave id (.gathering g.id) [g] reports := by
  refine ⟨⟨a.gatherings.length, id, children, children.length⟩,
    (children.filter a.isDone).map fun _ => a.gatherings.length, rfl, ?_⟩
  rw [leave, List.foldl_map]
  rfl

theorem roster_leave (a : Agenda) (id : Nat) (stage : TaskStage) (gs : List Gathering) (reports : List Nat) :
    (a.leave id stage gs reports).roster = a.roster :=
  (congrArg (List.map _) (foldl_reports_tasks ..)).trans (roster_setStage ..)

theorem leave_now (a : Agenda) (id : Nat) (stage : TaskStage) (gs : List Gathering) (reports : List Nat) :
    (a.leave id stage gs reports).now = a.now :=
  reports_now ..

variable {s r : TaskStage} {gs fs : List Gathering}

theorem Hides.leave (h : (a.setStage k s).Hides hidden) (hg : ∀ g ∈ gs, g.waiter ∈ hidden) (reports : List Nat) :
    (a.setStage k s).Agree hidden (a.leave k s gs reports) := by
  have hides : Hides hidden { a.setStage k s with gatherings := a.gatherings ++ gs } := by
    refine ⟨h.distinct, h.jobs, h.begun, fun g hm => ?_, ⟨h.numbered.distinct, h.numbered.below⟩⟩
    exact (List.mem_append.mp hm).elim (h.waiters g) (hg g)
  exact Agree.trans ⟨h, hides, rfl, rfl, rfl⟩ (hides.reports reports)

/-- A task that waits is hidden from the end of its first turn on. -/
theorem Agree.leave (h : a.Agree hidden b) (ha : ∀ t ∈ a.tasks, t.id = k → ∃ w, t.work = .wait w)
    (hb : ∀ t ∈ b.tasks, t.id = k → ∃ w, t.work = .wait w) (hs : s ≠ .fresh) (hr : r ≠ .fresh)
    (hg : ∀ g ∈ gs, g.waiter = k) (hf : ∀ g ∈ fs, g.waiter = k) (xs ys : List Nat) :
    (a.leave k s gs xs).Agree (k :: hidden) (b.leave k r fs ys) := by
  have awake : ∀ {c : Agenda}, ∀ t ∈ (c.setStage k .awake).tasks, t.id = k → ∀ w, t.work = .wait w →
      t.stage ≠ .fresh := by
    intro c u hu hi w _
    obtain ⟨t, -, rfl⟩ := List.mem_map.mp hu
    by_cases ht : t.id = k
    · rw [if_pos ht]
      simp
    · rw [if_neg ht] at hi
      exact absurd hi ht
  have both : (a.setStage k .awake).Agree (k :: hidden) (b.setStage k .awake) :=
    (h.setStage k (by simp) (by simp)).hide awake awake
  have side : ∀ {c : Agenda} {s : TaskStage} {gs : List Gathering}, (c.setStage k .awake).Hides (k :: hidden) →
      (∀ t ∈ c.tasks, t.id = k → ∃ w, t.work = .wait w) → s ≠ .fresh → (∀ g ∈ gs, g.waiter = k) →
        ∀ reports, (c.setStage k .awake).Agree (k :: hidden) (c.leave k s gs reports) := by
    intro c s gs hc hw hs hg reports
    have hset := hc.setStage (List.mem_cons_self ..) hs fun u hu hi j hj => by
      obtain ⟨t, ht, rfl⟩ := List.mem_map.mp hu
      by_cases hk : t.id = k
      · obtain ⟨w, hwait⟩ := hw t ht hk
        rw [if_pos hk] at hj
        cases hwait.symm.trans hj
      · rw [if_neg hk] at hi
        exact absurd hi hk
    rw [setStage_setStage] at hset
    exact hset.trans (hset.right.leave (fun g hm => hg g hm ▸ List.mem_cons_self ..) reports)
  exact ((side both.left ha hs hg xs).symm.trans both).trans (side both.right hb hr hf ys)

theorem report_now (a : Agenda) (id : Nat) : (a.report id).now = a.now := by
  unfold Agenda.report
  cases a.gathering? id with
  | none => rfl
  | some g =>
      simp only
      split <;> rfl

theorem Hides.report (h : a.Hides hidden) (g : Nat) : a.Agree hidden (a.report g) := by
  unfold Agenda.report
  cases hg : a.gathering? g with
  | none => exact h.agree
  | some u =>
      obtain ⟨hm, rfl⟩ := gathering?_mem hg
      have hides : ({ a with gatherings := a.gatherings.map (told u.id) } : Agenda).Hides hidden := by
        refine ⟨h.distinct, h.jobs, h.begun, fun v hv => ?_, ⟨h.numbered.distinct, h.numbered.below⟩⟩
        obtain ⟨x, hx, rfl⟩ := List.mem_map.mp hv
        rw [(told_waiter u.id x).1]
        exact h.waiters x hx
      have htold : a.Agree hidden { a with gatherings := a.gatherings.map (told u.id) } := ⟨h, hides, rfl, rfl, rfl⟩
      by_cases hl : u.left = 1
      · have hk := h.waiters u hm
        have hawake := hides.setStage hk (s := .awake) (by simp) (by simp)
        simp only [hl, if_true]
        exact (htold.trans hawake).trans (hawake.right.append (.task u.waiter) (by simp [Turn.shown, hk]))
      · simp only [hl, if_false]
        exact htold

/-! ## Time -/

/-- The alarms of a list go off; only those of the tasks that are not hidden show. -/
theorem Agree.rings (h : a.Agree hidden b) (xs ys : List Alarm)
    (hxy : (xs.filter fun x => x.task ∉ hidden).map (·.task) = (ys.filter fun x => x.task ∉ hidden).map (·.task)) :
    (xs.foldl Agenda.ring a).Agree hidden (ys.foldl Agenda.ring b) := by
  have wake : ∀ {a b : Agenda}, a.Agree hidden b → ∀ k,
      ((a.setStage k .awake).append (.task k)).Agree hidden ((b.setStage k .awake).append (.task k)) :=
    fun h k => (h.setStage k (by simp) (by simp)).append (.task k)
  -- each list is compared with the tasks that are not hidden
  have key : ∀ (zs : List Alarm) {a b : Agenda}, a.Agree hidden b → (zs.foldl Agenda.ring a).Agree hidden
      (((zs.filter fun x => x.task ∉ hidden).map (·.task)).foldl
        (fun b k => (b.setStage k .awake).append (.task k)) b) := by
    intro zs
    induction zs with
    | nil => exact fun h => h
    | cons z zs ih =>
        intro a b h
        by_cases hz : z.task ∈ hidden
        · have hawake := h.left.setStage hz (s := .awake) (by simp) (by simp)
          have hring := hawake.trans (hawake.right.append (.task z.task) (by simp [Turn.shown, hz]))
          rw [List.filter_cons_of_neg (by simpa using hz)]
          exact ih (hring.symm.trans h)
        · rw [List.filter_cons_of_pos (by simpa using hz)]
          exact ih (wake h z.task)
  exact (key xs h.left.agree).trans ((hxy ▸ (key ys h.symm)).symm)

theorem Hides.passed (h : a.Hides hidden) (d : Nat) :
    Hides hidden { a with now := max a.now d, alarms := a.soonest.filter fun x => !decide (x.due = d) } := by
  refine h.congr rfl rfl (h.numbered.of_sublist ⟨a.alarms.filter fun x => !decide (x.due = d), ?_, ?_⟩ rfl)
  · exact a.soonest_perm.filter _
  · exact List.filter_sublist

theorem shownAlarms_passed (h : a.Hides hidden) (d : Nat) :
    shownAlarms hidden { a with now := max a.now d, alarms := a.soonest.filter fun x => !decide (x.due = d) } =
      (a.shownAlarms hidden).filter fun x => !decide (x.1 = d) := by
  have hs := soonest_eq (h.passed d).numbered.distinct (a.soonest_pairwise.sublist List.filter_sublist)
    (List.Perm.refl (a.soonest.filter fun x => !decide (x.due = d)))
  rw [shownAlarms, shownAlarms, hs, List.filter_map, List.filter_filter, List.filter_filter]
  congr 2
  funext x
  simp [Bool.and_comm]

theorem shown_due (hidden : List Nat) (a : Agenda) (d : Nat) :
    ((a.soonest.filter fun x => x.due = d).filter fun x => x.task ∉ hidden).map (·.task) =
      ((a.shownAlarms hidden).filter fun x => x.1 = d).map (·.2) := by
  rw [shownAlarms, List.filter_map, List.map_map, List.filter_filter, List.filter_filter]
  congr 2
  funext x
  simp [Bool.and_comm]

theorem Agree.passTo (h : a.Agree hidden b) (d : Nat) : (a.passTo d).Agree hidden (b.passTo d) := by
  refine Agree.rings ⟨h.left.passed d, h.right.passed d, h.tasks, h.turns, ?_⟩ _ _ ?_
  · rw [shownAlarms_passed h.left, shownAlarms_passed h.right, h.alarms]
  · rw [shown_due, shown_due, h.alarms]

/-- Only alarms of hidden tasks go off. -/
theorem Hides.passTo (h : a.Hides hidden) {d : Nat} (hd : ∀ x ∈ a.shownAlarms hidden, x.1 ≠ d) :
    a.Agree hidden (a.passTo d) := by
  have hnone : (a.shownAlarms hidden).filter (fun x => x.1 = d) = [] :=
    List.filter_eq_nil_iff.mpr fun x hx => by simpa using hd x hx
  have hall : (a.shownAlarms hidden).filter (fun x => !decide (x.1 = d)) = a.shownAlarms hidden :=
    List.filter_eq_self.mpr fun x hx => by simpa using hd x hx
  refine Agree.rings ⟨h, h.passed d, rfl, rfl, ?_⟩ [] _ ?_
  · rw [shownAlarms_passed h, hall]
  · rw [shown_due, hnone]
    rfl

end Agenda
end Formwork
