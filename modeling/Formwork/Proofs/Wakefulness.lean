import Formwork.Proofs.Returns

/-!
A live session forgets nobody: a task that has not ended is to have a turn, sleeps until an alarm, or waits for tasks of
which one has not ended or is about to report.
-/

namespace Formwork

namespace Agenda

variable {a b : Agenda} {running : Option Nat} {id n : Nat} {s : TaskStage} {t : Task} {rest : List Turn}

/-! ## The places of tasks -/

/-- One task goes on to another stage. -/
theorem Wakeful.setStage {running' : Option Nat} (h : a.Wakeful running) (hb : b.tasks = (a.setStage id s).tasks)
    (hothers : ∀ t, t.id ≠ id → a.Placed running t → b.Placed running' t)
    (hself : ∀ t : Task, t.id = id → b.Placed running' { t with stage := s }) : b.Wakeful running' := by
  intro x hx
  rw [hb] at hx
  obtain ⟨t, ht, rfl⟩ := List.mem_map.mp hx
  split
  · next hi => exact hself t hi
  · next hi => exact hothers t hi (h t ht)

theorem due_reporting (a : Agenda) (running : Option Nat) (gs : List Nat) :
    (a.reporting gs).due running = a.due running := by
  simp [due, reporting, Turn.task?]

theorem mem_due_none {k : Nat} (h : k ∈ a.due (some id)) (hk : k ≠ id) : k ∈ a.due none :=
  (List.mem_cons.mp h).resolve_left hk

theorem Wakeful.finish (h : a.Wakeful (some id)) : (a.finish id).Wakeful none := by
  refine h.setStage (finish_tasks a id) (fun t hi hp => ?_) fun _ _ => .of_done rfl
  rw [finish_reporting]
  refine hp.frame rfl rfl (fun hd => ?_) (fun _ hx _ => hx) fun _ hr _ _ => hr
  rw [due_reporting]
  exact mem_due_none hd hi

theorem Wakeful.sleep (h : a.Wakeful (some id)) (pause : Pause) : (a.sleep id pause).Wakeful none := by
  have hdue := due_append_task (a.setStage id .awake) none id
  have awake : ((a.setStage id .awake).append (.task id)).Wakeful none := by
    refine h.setStage rfl (fun t hi hp => ?_) fun t hi => ?_
    · refine hp.frame rfl rfl (fun hd => ?_) (fun _ hx _ => hx) fun _ hr _ _ => hr
      exact hdue ▸ List.mem_append_left _ (mem_due_none hd hi)
    · refine .of_due ?_ (.inr rfl)
      exact hdue ▸ List.mem_append_right _ (List.mem_singleton.mpr hi)
  cases pause with
  | none | turn => exact awake
  | time micros =>
      refine h.setStage rfl (fun t hi hp => ?_) fun t hi => ⟨by simp, fun _ => ?_, by simp⟩
      · exact hp.frame rfl rfl (fun hd => mem_due_none hd hi) (fun _ hx _ => List.mem_append_left _ hx) fun _ hr _ _ => hr
      · exact ⟨_, List.mem_append_right _ (List.mem_singleton_self _), hi.symm⟩

/-- A task that waits for some others is to be told of them. -/
theorem Wakeful.gather (h : a.Wakeful (some id)) {children : List Nat} (hc : children ≠ []) :
    (a.gather id children).Wakeful none := by
  have hdue := due_reporting ({ a.setStage id (.gathering a.gatherings.length) with
    gatherings := a.gatherings ++ [⟨a.gatherings.length, id, children, children.length⟩] } : Agenda) none
    ((children.filter a.isDone).map fun _ => a.gatherings.length)
  rw [gather_reporting]
  refine h.setStage rfl (fun t hi hp => ?_) fun t hi => ⟨by simp, by simp, fun g hg => ?_⟩
  · refine hp.frame rfl rfl (fun hd => ?_) (fun _ hx _ => hx) fun _ hr _ _ => List.mem_append_left _ hr
    exact hdue ▸ mem_due_none hd hi
  · obtain rfl := TaskStage.gathering.inj hg
    exact ⟨_, List.mem_append_right _ (List.mem_singleton_self _), rfl, hi.symm, List.length_pos_iff.mpr hc⟩

/-- The next turn is taken from the list. -/
theorem Wakeful.pop_task (h : a.Wakeful none) (ht : a.turns = .task id :: rest) :
    ({ a with turns := rest } : Agenda).Wakeful (some id) := by
  have hdue : ({ a with turns := rest } : Agenda).due (some id) = a.due none := by simp [due, ht, Turn.task?]
  exact fun t hm => (h t hm).frame rfl rfl (fun hd => hdue ▸ hd) (fun _ hx _ => hx) fun _ hr _ _ => hr

theorem Wakeful.pop_report {g : Nat} (h : a.Wakeful none) (ht : a.turns = .report g :: rest) :
    ({ a with turns := rest } : Agenda).Wakeful none := by
  have hdue : ({ a with turns := rest } : Agenda).due none = a.due none := by
    simp [due, ht, List.filterMap_cons, Turn.task?]
  exact fun t hm => (h t hm).frame rfl rfl (fun hd => hdue ▸ hd) (fun _ hx _ => hx) fun _ hr _ _ => hr

/-- One of the tasks of a gathering reports; the last one calls the task that waits. -/
theorem Wakeful.report (h : a.Wakeful none) (hnum : a.gatherings.map (·.id) = List.range a.gatherings.length) (g : Nat) :
    (a.report g).Wakeful none := by
  have hnodup : (a.gatherings.map (·.id)).Nodup := hnum ▸ List.nodup_range
  unfold Agenda.report
  cases hg : a.gathering? g with
  | none => exact h
  | some x =>
      obtain ⟨hx, rfl⟩ := gathering?_mem hg
      by_cases hl : x.left = 1
      · have hdue := due_append_task
          ({ a with gatherings := a.gatherings.map (told x.id) } : Agenda) none x.waiter
        simp only [hl, if_true]
        refine h.setStage rfl (fun t hi hp => ?_) fun t hi => ?_
        · refine hp.frame rfl rfl (fun hd => ?_) (fun _ hx _ => hx) fun r hr hw _ => ?_
          · exact hdue ▸ List.mem_append_left _ hd
          · -- the gathering is another one
            refine List.mem_map.mpr ⟨r, hr, if_neg fun he => hi ?_⟩
            rw [← List.inj_on_of_nodup_map hnodup hr hx he, hw]
        · refine .of_due ?_ (.inr rfl)
          exact hdue ▸ List.mem_append_right _ (List.mem_singleton.mpr hi)
      · simp only [hl, if_false]
        refine fun t ht => ⟨(h t ht).due, (h t ht).asleep, fun g hs => ?_⟩
        obtain ⟨r, hr, hrg, hw, hleft⟩ := (h t ht).gathering g hs
        refine ⟨told x.id r, List.mem_map_of_mem hr, (told_waiter ..).2.trans hrg, (told_waiter ..).1.trans hw, ?_⟩
        unfold told
        split
        · next he =>
            obtain rfl := List.inj_on_of_nodup_map hnodup hr hx he
            change 0 < r.left - 1
            omega
        · exact hleft

theorem Wakeful.ring {x : Alarm} (h : ({ a with alarms := x :: a.alarms } : Agenda).Wakeful running) :
    (a.ring x).Wakeful running := by
  have hdue := due_append_task (a.setStage x.task .awake) running x.task
  refine Wakeful.setStage (a := { a with alarms := x :: a.alarms }) h rfl (fun t hi hp => ?_) fun t hi => ?_
  · refine hp.frame rfl rfl (fun hd => ?_) (fun y hy hyt => ?_) fun _ hr _ _ => hr
    · exact hdue ▸ List.mem_append_left _ hd
    · exact (List.mem_cons.mp hy).resolve_left fun he => hi (he ▸ hyt.symm)
  · refine .of_due ?_ (.inr rfl)
    exact hdue ▸ List.mem_append_right _ (List.mem_singleton.mpr hi)

theorem Wakeful.rings {xs : List Alarm} (h : ({ a with alarms := xs ++ a.alarms } : Agenda).Wakeful running) :
    (xs.foldl Agenda.ring a).Wakeful running := by
  induction xs generalizing a with
  | nil => exact h
  | cons x xs ih => exact ih (a := a.ring x) (Wakeful.ring (a := { a with alarms := xs ++ a.alarms }) h)

theorem Wakeful.advance? {limit : Option Nat} (h : a.Wakeful none) (hb : a.advance? limit = some b) :
    b.Wakeful none := by
  obtain ⟨x, -, rfl, -, -⟩ := advance?_some hb
  refine Wakeful.rings fun t ht => (h t ht).frame rfl rfl (fun hd => hd) (fun y hy _ => ?_) fun _ hr _ _ => hr
  -- an alarm goes off, or it is left
  have hmem := a.soonest_perm.mem_iff.mpr hy
  by_cases hd : y.due = x.due
  · exact List.mem_append_left _ (List.mem_filter.mpr ⟨hmem, decide_eq_true hd⟩)
  · exact List.mem_append_right _ (List.mem_filter.mpr ⟨hmem, by simpa using hd⟩)

/-- A new task has its first turn at once. -/
theorem Wakeful.add (h : a.Wakeful none) (id : Nat) (work : Work) :
    ({ a with tasks := a.tasks ++ [{ id, work }] } : Agenda).Wakeful (some id) := by
  intro t ht
  rcases List.mem_append.mp ht with ht | ht
  · exact (h t ht).frame rfl rfl (fun hd => List.mem_cons_of_mem _ hd) (fun _ hx _ => hx) fun _ hr _ _ => hr
  · rw [List.mem_singleton.mp ht]
    exact .of_due List.mem_cons_self (.inl rfl)

/-! ## The count of a gathering -/

/-- No gathering counts more tasks than have not ended or are about to report. -/
def Tallied (a : Agenda) : Prop :=
  ∀ g ∈ a.gatherings, g.children.Nodup → g.left ≤ a.undone g.children + a.turns.count (.report g.id)

theorem undone_mono (h : ∀ k, a.isDone k = false → b.isDone k = false) (tasks : List Nat) :
    a.undone tasks ≤ b.undone tasks := by
  refine List.countP_mono_left fun k _ hk => ?_
  simp [h k (by simpa using hk)]

theorem Tallied.of_later (h : a.Tallied) (hg : b.gatherings = a.gatherings)
    (hd : ∀ k, a.isDone k = false → b.isDone k = false)
    (hr : ∀ g, b.turns.count (.report g) = a.turns.count (.report g)) : b.Tallied := by
  intro g hm hn
  have hleft := h g (hg ▸ hm) hn
  have hmono := undone_mono hd g.children
  rw [hr]
  omega

theorem Tallied.adjusts (h : a.Tallied) (hb : a.Adjusts n b) : b.Tallied := h.of_later hb.gatherings hb.going hb.reports

theorem Tallied.setStage (h : a.Tallied) (hid : a.isDone id = false) (hs : s ≠ .done) : (a.setStage id s).Tallied :=
  h.of_later rfl (fun k hk => (isDone_setStage_open hid hs k).trans hk) fun _ => rfl

theorem Tallied.append_task (h : a.Tallied) (id : Nat) : (a.append (.task id)).Tallied :=
  h.of_later rfl (fun _ hk => hk) fun g => by simp [append]

theorem Tallied.pop_task (h : a.Tallied) (ht : a.turns = .task id :: rest) : ({ a with turns := rest } : Agenda).Tallied :=
  h.of_later rfl (fun _ hk => hk) fun g => by simp [ht]

theorem Tallied.sleep (h : a.Tallied) (hid : a.isDone id = false) (pause : Pause) : (a.sleep id pause).Tallied := by
  cases pause with
  | none | turn => exact (h.setStage hid (s := .awake) (by simp)).append_task id
  | time micros => exact (h.setStage hid (s := .asleep) (by simp)).of_later rfl (fun _ hk => hk) fun _ => rfl

theorem Tallied.finish (h : a.Tallied) (hid : a.isDone id = false) : (a.finish id).Tallied := by
  rw [finish_reporting]
  intro g hg hn
  have hg : g ∈ a.gatherings := hg
  have hleft := h g hg hn
  have hdone := undone_done hid g.children
  -- if the gathering waits for the task, then the task reports to it
  have hcount : g.children.count id ≤
      ((a.gatherings.filter fun g => g.children.contains id).map (·.id)).count g.id := by
    by_cases hchild : id ∈ g.children
    · refine Nat.le_trans (List.nodup_iff_count_le_one.mp hn id) (List.count_pos_iff.mpr (List.mem_map_of_mem ?_))
      exact List.mem_filter.mpr ⟨hg, by simpa using hchild⟩
    · rw [List.count_eq_zero.mpr hchild]
      exact Nat.zero_le _
  rw [count_reporting]
  change g.left ≤ (a.setStage id .done).undone g.children + (a.turns.count _ + _)
  omega

theorem Tallied.gather (h : a.Tallied) (hid : a.isDone id = false) (children : List Nat) :
    (a.gather id children).Tallied := by
  have hsame := isDone_setStage_open (s := .gathering a.gatherings.length) hid (by simp)
  rw [gather_reporting]
  intro g hg hn
  rw [count_reporting]
  change g.left ≤ (a.setStage id _).undone g.children + (a.turns.count _ + _)
  rw [undone_congr hsame]
  rcases List.mem_append.mp hg with hg | hg
  · have hleft := h g hg hn
    omega
  · obtain rfl := List.mem_singleton.mp hg
    have hall := a.undone_add children
    rw [List.map_const', List.count_replicate, ← List.countP_eq_length_filter]
    simp only [beq_self_eq_true, if_true]
    omega

theorem Tallied.report (h : a.Tallied) (ho : a.Orderly none) {g : Nat} (ht : a.turns = .report g :: rest) :
    (({ a with turns := rest } : Agenda).report g).Tallied := by
  have hcount : ∀ i, a.turns.count (.report i) = rest.count (.report i) + if g = i then 1 else 0 := by
    intro i
    rw [ht, List.count_cons]
    simp
  unfold Agenda.report
  cases hg : ({ a with turns := rest } : Agenda).gathering? g with
  | none =>
      have hne : ∀ x ∈ a.gatherings, x.id ≠ g := by simpa using List.find?_eq_none.mp hg
      intro x hx hn
      have hleft := h x hx hn
      rw [hcount, if_neg (Ne.symm (hne x hx))] at hleft
      exact hleft
  | some x =>
      obtain ⟨hm, rfl⟩ := gathering?_mem hg
      have htold : Tallied { a with turns := rest, gatherings := a.gatherings.map (told x.id) } := by
        intro z hz hn
        obtain ⟨y, hy, rfl⟩ := List.mem_map.mp hz
        rw [told_children] at hn ⊢
        have hleft := h y hy hn
        rw [hcount] at hleft
        rw [(told_waiter x.id y).2, told]
        change _ ≤ a.undone y.children + rest.count (.report y.id)
        split
        · next hi =>
            rw [if_pos hi.symm] at hleft
            change y.left - 1 ≤ _
            omega
        · next hi =>
            rw [if_neg (Ne.symm hi)] at hleft
            exact hleft
      by_cases hl : x.left = 1
      · simp only [hl, if_true]
        have hstage := ho.gathering x hm (by omega)
        exact (htold.setStage (isDone_of_stage hstage) (by simp)).append_task _
      · simp only [hl, if_false]
        exact htold

theorem Tallied.rings {xs : List Alarm} (h : a.Tallied) (hs : ∀ x ∈ xs, a.isDone x.task = false) :
    (xs.foldl Agenda.ring a).Tallied := by
  induction xs generalizing a with
  | nil => exact h
  | cons x xs ih =>
      have hopen := hs x List.mem_cons_self
      refine ih ((h.setStage hopen (by simp)).append_task x.task) fun y hy => ?_
      exact (isDone_setStage_open hopen (by simp) y.task).trans (hs y (List.mem_cons_of_mem x hy))

theorem Tallied.advance? {limit : Option Nat} (h : a.Tallied) (ho : a.Orderly none) (hb : a.advance? limit = some b) :
    b.Tallied := by
  obtain ⟨x, -, rfl, -, -⟩ := advance?_some hb
  refine Tallied.rings (h.of_later rfl (fun _ hk => hk) fun _ => rfl) fun y hy => ?_
  exact isDone_of_stage (ho.asleep y (a.soonest_perm.mem_iff.mp (List.mem_filter.mp hy).1))

theorem Tallied.add (h : a.Tallied) (u : Task) : ({ a with tasks := a.tasks ++ [u] } : Agenda).Tallied := by
  refine h.of_later rfl (fun k hk => ?_) fun _ => rfl
  cases hs : a.stage? k with
  | none =>
      rw [isDone_iff.mpr (by simp [hs])] at hk
      cases hk
  | some r =>
      rw [isDone_of_stage hs] at hk
      rw [isDone_of_stage (by rw [stage?_append, hs, Option.some_or]), hk]

end Agenda

namespace LiveSession

variable {l m r : LiveSession} {t : Task} {j : Job}

/-- Whoever has not ended is told when it is to go on. -/
structure Wakes (l : LiveSession) : Prop where
  wakeful : l.agenda.Wakeful none
  tallied : l.agenda.Tallied

/-! ## Turns -/

/-- What the next turn is: a report, or the turn of a task. -/
inductive NextTurn (l : LiveSession) : LiveSession → Prop
  | report (g : Nat) (rest : List Turn) (hturns : l.agenda.turns = .report g :: rest) :
      NextTurn l (l.onAgenda fun a => ({ a with turns := rest } : Agenda).report g)
  | task (t : Task) (rest : List Turn) (hturns : l.agenda.turns = .task t.id :: rest) (ht : t ∈ l.agenda.tasks) :
      NextTurn l ((l.onAgenda fun a => { a with turns := rest }).takeTurn t)

theorem nextTurn (ho : l.agenda.Orderly none) (h : l.turn? = some m) : l.NextTurn m := by
  unfold turn? at h
  cases hturns : l.agenda.turns with
  | nil => simp [hturns] at h
  | cons turn rest =>
      simp only [hturns, Option.some.injEq] at h
      subst h
      cases turn with
      | report g => exact .report g rest hturns
      | task id =>
          obtain ⟨t, ht⟩ := ho.task_of_due (k := id) (by simp [Agenda.due, hturns, Turn.task?])
          obtain ⟨hmem, rfl⟩ := Agenda.task?_mem ht
          have htask : (l.onAgenda fun a => { a with turns := rest }).agenda.task? t.id = some t := ht
          simp only [htask]
          exact .task t rest hturns hmem

theorem TurnEnds.wakes (h : l.TurnEnds t r) (ho : l.agenda.Orderly (some t.id)) (ht : t ∈ l.agenda.tasks)
    (hw : l.agenda.Wakeful (some t.id)) (hl : l.agenda.Tallied) : r.Wakes := by
  have hopen {m : LiveSession} (hm : l.Adjusts m) : m.agenda.isDone t.id = false := by
    refine hm.agenda.going t.id ?_
    rw [Agenda.isDone_of_stage (ho.stage_of_mem ht)]
    rcases ho.running_stage ht rfl with hs | hs <;> simp [hs]
  cases h with
  | ended hm _ hagenda =>
      exact ⟨hagenda ▸ (hm.wakeful _ hw).finish, hagenda ▸ (hl.adjusts hm.agenda).finish (hopen hm)⟩
  | slept pause hm _ hagenda =>
      exact ⟨hagenda ▸ (hm.wakeful _ hw).sleep pause, hagenda ▸ (hl.adjusts hm.agenda).sleep (hopen hm) pause⟩
  | gathered children hm _ hagenda _ hne =>
      exact ⟨hagenda ▸ (hm.wakeful _ hw).gather hne, hagenda ▸ (hl.adjusts hm.agenda).gather (hopen hm) children⟩

theorem Wakes.turn (hw : l.Wakes) (hf : l.Follows [] none []) (h : l.turn? = some m) : m.Wakes := by
  cases nextTurn hf.orderly h with
  | report g rest hturns =>
      exact ⟨(hw.wakeful.pop_report hturns).report hf.orderly.numbered g, hw.tallied.report hf.orderly hturns⟩
  | task t rest hturns ht =>
      exact (takeTurn_turnEnds fun wait hwork => hf.take_wait ht hturns hwork).wakes (hf.orderly.next_turn hturns) ht
        (hw.wakeful.pop_task hturns) (hw.tallied.pop_task hturns)

/-! ## Whatever is done with a live session -/

theorem Wakes.adjusts (hw : l.Wakes) (h : l.Adjusts m) : m.Wakes :=
  ⟨h.wakeful none hw.wakeful, hw.tallied.adjusts h.agenda⟩

theorem Wakes.moves (hw : l.Wakes) (hf : l.Follows [] none []) (h : l.Moves m) : m.Wakes := by
  cases h with
  | edit id value => exact hw.adjusts (l.edit_adjusts id value)
  | validateAll => exact hw.adjusts l.validateAll_adjusts
  | addListener listener => exact hw.adjusts (.of_same rfl rfl)
  | removeListener name =>
      obtain ⟨hs, ha⟩ := l.removeListener_same name
      exact hw.adjusts (.of_same hs ha)
  | startWait wait => exact ⟨hw.wakeful.start _ _, (hw.tallied.add _).append_task _⟩
  | enter wait =>
      have hcalled := called_follows hf wait
      have hends : (l.called wait).TurnEnds { id := l.session.nextTask, work := .wait wait } (l.enter wait) :=
        beginWait_turnEnds rfl hcalled
      exact hends.wakes hcalled.orderly (List.mem_append_right _ (List.mem_singleton_self _)) (hw.wakeful.add _ _)
        (hw.tallied.add _)
  | onward h =>
      cases h with
      | turn h => exact hw.turn hf h
      | alarms _ h =>
          obtain ⟨a, ha, rfl⟩ := Option.map_eq_some_iff.mp h
          exact ⟨hw.wakeful.advance? ha, hw.tallied.advance? hf.orderly ha⟩
      | clock time =>
          refine ⟨fun t ht => ?_, hw.tallied.of_later rfl (fun _ hk => hk) fun _ => rfl⟩
          exact (hw.wakeful t ht).frame rfl rfl (fun hd => hd) (fun _ hx _ => hx) fun _ hr _ _ => hr
      | evaluator e => exact ⟨hw.wakeful, hw.tallied⟩

theorem Lived.wakes (h : l.Lived) : l.Wakes := by
  induction h with
  | opened hs evaluator fieldPause formPause listeners => exact ⟨nofun, nofun⟩
  | moves h hm ih => exact ih.moves h.attentive.follows hm

/-- When no turn is left and no alarm is set, all jobs have ended. -/
theorem Wakes.job_done (hw : l.Wakes) (ho : l.agenda.Orderly none) (hturns : l.agenda.turns = [])
    (halarms : l.agenda.alarms = []) (ht : t ∈ l.agenda.tasks) (hj : t.work = .job j) : t.stage = .done := by
  have hp := hw.wakeful t ht
  have hdue : l.agenda.due none = [] := by simp [Agenda.due, hturns]
  cases hs : t.stage with
  | fresh | awake =>
      have hd := hp.due (by simp [hs])
      simp [hdue] at hd
  | asleep =>
      obtain ⟨x, hx, -⟩ := hp.asleep hs
      simp [halarms] at hx
  | gathering g => exact absurd hs (ho.jobs t ht j hj g)
  | done => rfl

end LiveSession
end Formwork
