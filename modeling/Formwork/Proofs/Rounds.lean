import Formwork.Proofs.FormTimer
import Formwork.Proofs.Undisturbed

/-!
The rounds of a call that waits for rest: in each of them it waits for the tasks that are outstanding. Once no timer is
live, nothing new can become outstanding, and the round that begins then is the last one.
-/

namespace Formwork

namespace Agenda

variable {a b : Agenda} {k : Nat} {children : List Nat}

/-- The rounds that a caller has begun: each has a number, and some tasks that have to end. -/
def rounds (a : Agenda) (caller : Nat) : List (Nat × List Nat) :=
  (a.gatherings.filter fun g => g.waiter = caller).map fun g => (g.id, g.children)

theorem mem_rounds {x : Nat × List Nat} :
    x ∈ a.rounds k ↔ ∃ g ∈ a.gatherings, g.waiter = k ∧ (g.id, g.children) = x := by
  simp [rounds, and_assoc]

theorem rounds_gather (a : Agenda) (id : Nat) (children : List Nat) (k : Nat) :
    (a.gather id children).rounds k = a.rounds k ++ if id = k then [(a.gatherings.length, children)] else [] := by
  rw [gather_reporting]
  change ((a.gatherings ++ [_]).filter _).map _ = _
  rw [List.filter_append, List.map_append]
  split <;> simp [rounds, *]

theorem rounds_finish (a : Agenda) (id k : Nat) : (a.finish id).rounds k = a.rounds k := by
  rw [finish_reporting]
  rfl

theorem rounds_sleep (a : Agenda) (id : Nat) (pause : Pause) (k : Nat) : (a.sleep id pause).rounds k = a.rounds k := by
  cases pause <;> rfl

theorem rounds_told (a : Agenda) (g k : Nat) :
    ({ a with gatherings := a.gatherings.map (told g) } : Agenda).rounds k = a.rounds k := by
  have hwaiter : ((fun x => decide (x.waiter = k)) ∘ told g) = fun x : Gathering => decide (x.waiter = k) := by
    funext x
    rw [Function.comp_apply, (told_waiter g x).1]
  have hround : ((fun x => (x.id, x.children)) ∘ told g) = fun x : Gathering => (x.id, x.children) := by
    funext x
    rw [Function.comp_apply, (told_waiter g x).2, told_children]
  rw [rounds, List.filter_map, List.map_map, hwaiter, hround, rounds]

theorem rounds_report (a : Agenda) (g k : Nat) : (a.report g).rounds k = a.rounds k := by
  unfold Agenda.report
  cases hg : a.gathering? g with
  | none => rfl
  | some x =>
      obtain ⟨-, rfl⟩ := gathering?_mem hg
      rw [← a.rounds_told x.id k]
      simp only
      split <;> rfl

theorem rounds_rings (xs : List Alarm) (a : Agenda) (k : Nat) : (xs.foldl Agenda.ring a).rounds k = a.rounds k := by
  induction xs generalizing a with
  | nil => rfl
  | cons x xs ih => exact ih (a.ring x)

theorem rounds_advance? {limit : Option Nat} (hb : a.advance? limit = some b) (k : Nat) : b.rounds k = a.rounds k := by
  obtain ⟨x, -, rfl, -, -⟩ := advance?_some hb
  exact rounds_rings ..

end Agenda

namespace LiveSession

variable {l m n : LiveSession} {t : Task} {w : Wait} {ts : List World.Transition} {k : Nat} {r : LiveSession}

/-! ## Who begins a round -/

theorem Adjusts.rounds (h : l.Adjusts m) (k : Nat) : m.agenda.rounds k = l.agenda.rounds k := by
  rw [Agenda.rounds, h.agenda.gatherings, Agenda.rounds]

/-- Only the task that has its turn begins a round. -/
theorem TurnEnds.rounds (h : l.TurnEnds t r) (hk : t.id ≠ k) : r.agenda.rounds k = l.agenda.rounds k := by
  cases h with
  | ended hm _ hagenda => rw [hagenda, Agenda.rounds_finish, hm.rounds]
  | slept pause hm _ hagenda => rw [hagenda, Agenda.rounds_sleep, hm.rounds]
  | gathered children hm _ hagenda => rw [hagenda, Agenda.rounds_gather, if_neg hk, List.append_nil, hm.rounds]

theorem TurnEnds.next (h : l.TurnEnds t r) : l.session.nextTask ≤ r.session.nextTask := by
  cases h with
  | ended hm hs | slept _ hm hs | gathered _ hm hs => exact hs ▸ hm.next

theorem turn_rounds (hf : m.Follows [] none []) (h : m.turn? = some n) :
    m.session.nextTask ≤ n.session.nextTask ∧
      ∀ k, (∀ rest, m.agenda.turns ≠ .task k :: rest) → n.agenda.rounds k = m.agenda.rounds k := by
  cases nextTurn hf.orderly h with
  | report g rest hturns => exact ⟨Nat.le_refl _, fun k _ => Agenda.rounds_report ..⟩
  | task t rest hturns ht =>
      have hends := takeTurn_turnEnds fun wait hwork => hf.take_wait ht hturns hwork
      exact ⟨hends.next, fun k hk => hends.rounds fun hi => hk rest (hi ▸ hturns)⟩

theorem Onward.rounds (hn : m.Onward n) (hf : m.Follows [] none []) : m.session.nextTask ≤ n.session.nextTask ∧
    ∀ k, (∀ rest, m.agenda.turns ≠ .task k :: rest) → n.agenda.rounds k = m.agenda.rounds k := by
  cases hn with
  | turn h => exact turn_rounds hf h
  | alarms _ h =>
      obtain ⟨a, ha, rfl⟩ := Option.map_eq_some_iff.mp h
      exact ⟨Nat.le_refl _, fun k _ => Agenda.rounds_advance? ha k⟩
  | clock | evaluator => exact ⟨Nat.le_refl _, fun _ _ => rfl⟩

/-- The tasks that are still to come have begun no rounds. -/
theorem Lived.rounds (h : l.Lived) : ∀ k, l.session.nextTask ≤ k → l.agenda.rounds k = [] := by
  induction h with
  | opened => exact fun k _ => rfl
  | @moves l m h hm ih =>
      have hf := h.attentive.follows
      intro k hk
      have adjusts (h : l.Adjusts m) : m.agenda.rounds k = [] := (h.rounds k).trans (ih k (Nat.le_trans h.next hk))
      cases hm with
      | edit id value => exact adjusts (l.edit_adjusts id value)
      | validateAll => exact adjusts l.validateAll_adjusts
      | addListener listener => exact adjusts (.of_same rfl rfl)
      | removeListener name =>
          obtain ⟨hs, ha⟩ := l.removeListener_same name
          exact adjusts (.of_same hs ha)
      | startWait wait => exact ih k (Nat.le_of_succ_le hk)
      | enter wait =>
          have hends : (l.called wait).TurnEnds { id := l.session.nextTask, work := .wait wait } (l.enter wait) :=
            beginWait_turnEnds rfl (called_follows hf wait)
          have hlt : l.session.nextTask < k := Nat.lt_of_lt_of_le hends.next hk
          exact (hends.rounds (Nat.ne_of_lt hlt)).trans (ih k (Nat.le_of_lt hlt))
      | onward h =>
          obtain ⟨hnext, hrounds⟩ := h.rounds hf
          refine (hrounds k fun rest hturns => ?_).trans (ih k (Nat.le_trans hnext hk))
          obtain ⟨t, ht⟩ := hf.orderly.task_of_due (k := k) (by simp [Agenda.due, hturns, Turn.task?])
          obtain ⟨hmem, rfl⟩ := Agenda.task?_mem ht
          exact Nat.not_le_of_lt (hf.task_lt hmem) (Nat.le_trans hnext hk)

/-! ## What is outstanding -/

/-- A number is that of a job that has not ended. -/
def Stands (l : LiveSession) (k : Nat) (j : Job) : Prop :=
  ∃ t ∈ l.agenda.tasks, t.id = k ∧ t.stage ≠ .done ∧ t.work = .job j

/-- What is outstanding is kept straight. -/
structure Known (l : LiveSession) : Prop where
  nodup : l.outstanding.Nodup
  jobs : ∀ k ∈ l.outstanding, ∃ j, l.Stands k j
  timers : ∀ k ∈ l.timers, k ∈ l.outstanding

theorem mem_outstanding : k ∈ l.outstanding ↔ k ∈ l.session.tasks ∧ l.agenda.isDone k = false := by
  simp [outstanding]

section

variable (hf : l.Follows ts none [])

include hf

theorem Follows.stands (hk : k ∈ l.outstanding) : ∃ j, l.Stands k j := by
  obtain ⟨hk, hd⟩ := mem_outstanding.mp hk
  unfold Agenda.isDone at hd
  cases ht : l.agenda.task? k with
  | none => simp [ht] at hd
  | some t =>
      obtain ⟨hm, rfl⟩ := Agenda.task?_mem ht
      obtain ⟨j, hj⟩ := hf.tracked hk (t.id, t.work) (List.mem_map_of_mem hm) rfl
      exact ⟨j, t, hm, rfl, by simpa [ht] using hd, hj⟩

theorem Follows.stands_one {i j : Job} (hi : l.Stands k i) (hj : l.Stands k j) : i = j := by
  obtain ⟨t, ht, rfl, -, hi⟩ := hi
  obtain ⟨u, hu, hid, -, hj⟩ := hj
  obtain rfl := List.inj_on_of_nodup_map hf.orderly.distinct hu ht hid
  exact Work.job.inj (hi.symm.trans hj)

theorem Follows.form_stands (hk : l.session.formTimer = some k) (hopen : l.agenda.isDone k = false) :
    l.Stands k .formTimer := by
  obtain ⟨j, t, ht, rfl, hd, hj⟩ := hf.stands (mem_outstanding.mpr ⟨Session.mem_tasks.mpr (.inl hk), hopen⟩)
  obtain ⟨us, w, hw, -, hm⟩ := hf
  have he := Agenda.mem_errands_of_job ht hj hd
  rw [hm.session.symm] at hk
  obtain rfl := hw.sound.form_job _ (hm.errands.symm ▸ he) hk
  exact ⟨t, ht, rfl, hd, hj⟩

section

variable {c : Slot} (hc : c ∈ l.session.slots)

include hc

theorem Follows.timer_stands (hk : c.timer = some k) (hopen : l.agenda.isDone k = false) :
    l.Stands k (.fieldTimer c.field.id) := by
  obtain ⟨j, t, ht, rfl, hd, hj⟩ := hf.stands (mem_outstanding.mpr ⟨Session.mem_tasks.mpr (.inr ⟨c, hc, .inl hk⟩), hopen⟩)
  obtain rfl := hf.timer_job ht hj hd hc hk
  exact ⟨t, ht, rfl, hd, hj⟩

theorem Follows.inflight_stands (hk : c.inflight = some k) (hopen : l.agenda.isDone k = false) :
    ∃ token v, l.Stands k (.evaluation c.field.id token v) := by
  obtain ⟨j, t, ht, rfl, hd, hj⟩ := hf.stands (mem_outstanding.mpr ⟨Session.mem_tasks.mpr (.inr ⟨c, hc, .inr hk⟩), hopen⟩)
  obtain ⟨token, v, rfl⟩ := hf.inflight_job ht hj hd hc hk
  exact ⟨token, v, t, ht, rfl, hd, hj⟩

theorem Follows.slot_stands (hk : c.timer = some k ∨ c.inflight = some k) (hopen : l.agenda.isDone k = false) :
    ∃ j, l.Stands k j ∧ j.field? = some c.field.id := by
  rcases hk with hk | hk
  · exact ⟨_, hf.timer_stands hc hk hopen, rfl⟩
  · obtain ⟨token, v, hstands⟩ := hf.inflight_stands hc hk hopen
    exact ⟨_, hstands, rfl⟩

end

theorem Follows.outstanding_nodup : l.outstanding.Nodup := by
  have optional (o : Option Nat) : (o.toList.filter fun k => !l.agenda.isDone k).Nodup := by
    refine List.Nodup.filter _ ?_
    cases o <;> simp
  have hslots : l.session.slots.Pairwise fun c d => c.field.id ≠ d.field.id := List.pairwise_map.mp hf.nodup
  rw [outstanding, Session.tasks, List.filter_append, List.filter_flatMap]
  refine List.nodup_append.mpr ⟨optional _, List.nodup_flatMap.mpr ⟨fun c hc => ?_, ?_⟩, ?_⟩
  · rw [List.filter_append]
    refine List.nodup_append.mpr ⟨optional _, optional _, fun k hk i hi hki => ?_⟩
    subst hki
    simp only [List.mem_filter, Option.mem_toList, Bool.not_eq_true'] at hk hi
    obtain ⟨token, v, hstands⟩ := hf.inflight_stands hc hi.1 hi.2
    cases hf.stands_one (hf.timer_stands hc hk.1 hk.2) hstands
  · refine hslots.imp_of_mem fun hc hd hne k hk hi => hne ?_
    simp only [List.mem_filter, Option.mem_toList, Bool.not_eq_true', List.mem_append] at hk hi
    obtain ⟨j, hj, hfield⟩ := hf.slot_stands hc hk.1 hk.2
    obtain ⟨i, hi, hfield'⟩ := hf.slot_stands hd hi.1 hi.2
    rw [hf.stands_one hi hj, hfield] at hfield'
    exact Option.some.inj hfield'
  · intro k hk i hi hki
    subst hki
    simp only [List.mem_filter, Option.mem_toList, Bool.not_eq_true', List.mem_flatMap,
      List.mem_append] at hk hi
    obtain ⟨c, hc, hi, -⟩ := hi
    obtain ⟨j, hj, hfield⟩ := hf.slot_stands hc hi hk.2
    rw [hf.stands_one hj (hf.form_stands hk.1 hk.2)] at hfield
    cases hfield

theorem Follows.known : l.Known := by
  refine ⟨hf.outstanding_nodup, fun k hk => hf.stands hk, fun k hk => ?_⟩
  obtain ⟨t, ht, rfl⟩ := List.mem_map.mp hk
  obtain ⟨ht, hticks⟩ := List.mem_filter.mp ht
  obtain ⟨hc, hd, j, hj, hlight⟩ := Task.ticks_iff.mp hticks
  obtain ⟨us, w, hw, -, hm⟩ := id hf
  have he := hm.errands.symm ▸ Agenda.mem_errands_of_job ht hj hd
  refine mem_outstanding.mpr ⟨Session.mem_tasks.mpr ?_, ?_⟩
  · cases j with
    | evaluation => exact absurd trivial hlight
    | formTimer => exact .inl (hm.session ▸ hw.single _ he rfl hc)
    | fieldTimer id =>
        obtain ⟨c, hslot⟩ := Session.slot?_isSome_iff.mpr (hw.about _ he id rfl)
        obtain rfl := Session.slot?_id hslot
        rw [hm.session] at hslot
        exact .inr ⟨c, Session.slot?_mem hslot, .inl (hf.ticking ht hj hd hc (Session.slot?_mem hslot))⟩
  · rw [Agenda.isDone_of_stage (hf.orderly.stage_of_mem ht)]
    exact decide_eq_false hd

end

/-! ## A caller has its turn -/

section

variable (hf : l.Follows ts (some (k, .wait w)) [])

include hf

/-- What is outstanding does not depend on the caller. -/
theorem Follows.outstanding_caller : (l.finish k).outstanding = l.outstanding := by
  refine List.filter_congr fun i hi => ?_
  have hne : i ≠ k := by
    rintro rfl
    obtain ⟨j, hj⟩ := hf.tracked hi _ hf.present rfl
    cases hj
  have hdone : (l.finish k).agenda.isDone i = l.agenda.isDone i := by
    rw [Bool.eq_iff_iff, Agenda.isDone_iff, Agenda.isDone_iff, finish, onAgenda, Agenda.stage?_finish, if_neg hne]
  rw [hdone]

omit hf in
theorem stands_caller {i : Nat} {j : Job} (h : (l.finish k).Stands i j) : l.Stands i j := by
  obtain ⟨t, ht, hi, hd, hj⟩ := h
  have htasks : (l.finish k).agenda.tasks = (l.agenda.setStage k .done).tasks := Agenda.finish_tasks l.agenda k
  rcases Agenda.mem_setStage (htasks ▸ ht) with ⟨u, -, -, rfl⟩ | ht
  · exact absurd rfl hd
  · exact ⟨t, ht, hi, hd, hj⟩

theorem Follows.timers_caller : ∀ i ∈ l.timers, i ∈ (l.finish k).timers := by
  have htasks : (l.finish k).agenda.tasks = (l.agenda.setStage k .done).tasks := Agenda.finish_tasks l.agenda k
  intro i hi
  obtain ⟨t, ht, rfl⟩ := List.mem_map.mp hi
  obtain ⟨ht, hticks⟩ := List.mem_filter.mp ht
  refine List.mem_map_of_mem (List.mem_filter.mpr ⟨htasks ▸ List.mem_map.mpr ⟨t, ht, if_neg fun hi => ?_⟩, hticks⟩)
  obtain ⟨-, -, j, hj, -⟩ := Task.ticks_iff.mp hticks
  cases (hf.orderly.work_of_roster hf.present ht hi).symm.trans hj

theorem Follows.known_caller : l.Known := by
  have hended := (finish_follows hf).known
  have hrest := hf.outstanding_caller
  refine ⟨hrest ▸ hended.nodup, fun i hi => ?_, fun i hi => hrest ▸ hended.timers i (hf.timers_caller i hi)⟩
  obtain ⟨j, hj⟩ := hended.jobs i (hrest.symm ▸ hi)
  exact ⟨j, stands_caller hj⟩

end

end LiveSession
end Formwork
