import Formwork.Proofs.Rounds

/-!
A call that waits for rest in a session that is left alone. Every live timer is among the tasks of its first round; when
these have ended no timer is live, and all that is outstanding is among the tasks of the second one.
-/

namespace Formwork

namespace LiveSession

variable {l m n q : LiveSession} {t : Task} {w : Wait} {ts : List World.Transition} {k task bound g : Nat}
  {children : List Nat}

/-! ## What becomes of a call -/

/-- The call has its turn, or the tasks of its round have ended, or it is left alone. -/
inductive Beside (m n : LiveSession) (t : Task) : Prop
  | turn (rest : List Turn) (hturns : m.agenda.turns = .task t.id :: rest)
      (hn : n = (m.onAgenda fun a => { a with turns := rest }).takeTurn t)
  | woken (x : Gathering) (hx : x ∈ m.agenda.gatherings) (hs : t.stage = .gathering x.id)
      (hdone : ∀ k ∈ x.children, n.agenda.isDone k) (ht : { t with stage := .awake } ∈ n.agenda.tasks)
      (hr : ∀ k, n.agenda.rounds k = m.agenda.rounds k)
  | aside (ht : t ∈ n.agenda.tasks) (hr : n.agenda.rounds t.id = m.agenda.rounds t.id)

/-- A task of a gathering reports. -/
theorem report_beside (ha : m.Attentive) (ht : t ∈ m.agenda.tasks) {rest : List Turn}
    (hturns : m.agenda.turns = .report g :: rest) :
    m.Beside (m.onAgenda fun a => ({ a with turns := rest } : Agenda).report g) t := by
  have ho := ha.follows.orderly
  have hrounds : ∀ k, (({ m.agenda with turns := rest } : Agenda).report g).rounds k = m.agenda.rounds k :=
    fun k => Agenda.rounds_report ..
  cases hg : ({ m.agenda with turns := rest } : Agenda).gathering? g with
  | none => exact .aside (by simp only [onAgenda, Agenda.report, hg, ht]) (hrounds _)
  | some x =>
      obtain ⟨hx, rfl⟩ := Agenda.gathering?_mem hg
      by_cases hl : x.left = 1
      · have hstage := ho.gathering x hx (by omega)
        have htasks : (({ m.agenda with turns := rest } : Agenda).report x.id).tasks =
            (m.agenda.setStage x.waiter .awake).tasks := by
          simp only [Agenda.report, hg, hl, if_true]
          rfl
        by_cases hi : t.id = x.waiter
        · rw [← hi, ho.stage_of_mem ht, Option.some.injEq] at hstage
          refine .woken x hx hstage (fun k hk => ?_) ?_ hrounds
          · have hopen : m.agenda.isDone t.id = false := by
              rw [Agenda.isDone_of_stage (ho.stage_of_mem ht), hstage]
              rfl
            -- the report is the last one that is counted, so none of the tasks is left that has not ended
            have hnone : m.agenda.undone x.children = 0 := by
              have hleft := ha.attends.left x hx
              rw [hturns, List.count_cons_self] at hleft
              omega
            have hd : m.agenda.isDone k := by simpa using List.countP_eq_zero.mp hnone k hk
            change (({ m.agenda with turns := rest } : Agenda).report x.id).isDone k
            rw [Agenda.isDone, Agenda.task?, htasks, ← hi]
            exact (Agenda.isDone_setStage_open hopen (by simp) k).trans hd
          · exact htasks ▸ List.mem_map.mpr ⟨t, ht, if_pos hi⟩
        · exact .aside (htasks ▸ List.mem_map.mpr ⟨t, ht, if_neg hi⟩) (hrounds _)
      · exact .aside (by simp only [onAgenda, Agenda.report, hg, hl, if_false, ht]) (hrounds _)

theorem Undisturbed.beside (hu : m.Undisturbed) (hn : m.Onward n) (ht : t ∈ m.agenda.tasks) (hw : t.work = .wait w)
    (hs : t.stage ≠ .asleep) : m.Beside n t := by
  have hf := hu.lived.attentive.follows
  have hp := hu.passed hn
  by_cases hnext : m.agenda.next? = some t.id
  · cases hn with
    | turn h =>
        cases nextTurn hf.orderly h with
        | report g rest hturns => exact report_beside hu.lived.attentive ht hturns
        | task u rest hturns hmem =>
            have hi : u.id = t.id := by simpa [Agenda.next?, hturns] using hnext
            obtain rfl := List.inj_on_of_nodup_map hf.orderly.distinct hmem ht hi
            exact .turn rest hturns rfl
    | alarms hnone | clock _ hnone =>
        rw [Agenda.next?, turn?_eq_none.mp hnone] at hnext
        cases hnext
    | evaluator => exact .aside ht rfl
  · refine .aside (hp.continues.wait ht hw hs hnext) ((hn.rounds hf).2 t.id fun rest hturns => hnext ?_)
    simp [Agenda.next?, hturns]

/-! ## How far a call has come -/

/-- The call waits for some jobs to end. -/
structure Gathers (m : LiveSession) (task g : Nat) (children : List Nat) : Prop where
  begun : (g, children) ∈ m.agenda.rounds task
  nodup : children.Nodup
  jobs : ∀ k ∈ children, ∃ t ∈ m.agenda.tasks, t.id = k ∧ ∃ j, t.work = .job j

/-- How far a call has come that waits for rest, when no timer is live. It begins no more rounds than `bound`. -/
inductive Settles (task : Nat) (w : Wait) (bound : Nat) (children : List Nat) (m : LiveSession) : Prop
  /-- All that is outstanding is among the tasks that it waits for. -/
  | gathering (g : Nat) (ht : { id := task, work := .wait w, stage := .gathering g } ∈ m.agenda.tasks)
      (hg : m.Gathers task g children) (htimers : m.timers = []) (hrest : ∀ k ∈ m.outstanding, k ∈ children)
      (hr : (m.agenda.rounds task).length ≤ bound)
  | awake (ht : { id := task, work := .wait w, stage := .awake } ∈ m.agenda.tasks) (htimers : m.timers = [])
      (hrest : m.outstanding = []) (hr : (m.agenda.rounds task).length ≤ bound)
  | returned (ht : { id := task, work := .wait w, stage := .done } ∈ m.agenda.tasks)
      (hr : (m.agenda.rounds task).length ≤ bound)

/-- How far a call has come that waits for rest, from its first round on. -/
inductive Rests (task : Nat) (w : Wait) (bound : Nat) (m : LiveSession) : Prop
  /-- All live timers are among the tasks that it waits for. -/
  | ticking (g : Nat) (children : List Nat) (ht : { id := task, work := .wait w, stage := .gathering g } ∈ m.agenda.tasks)
      (hg : m.Gathers task g children) (htimers : ∀ k ∈ m.timers, k ∈ children)
      (hr : (m.agenda.rounds task).length + 1 ≤ bound)
  | between (ht : { id := task, work := .wait w, stage := .awake } ∈ m.agenda.tasks) (htimers : m.timers = [])
      (hr : (m.agenda.rounds task).length + 1 ≤ bound)
  | settles (children : List Nat) (h : m.Settles task w bound children)

theorem Settles.bounded (h : m.Settles task w bound children) : (m.agenda.rounds task).length ≤ bound := by
  cases h with
  | gathering _ _ _ _ _ hr | awake _ _ _ hr | returned _ hr => exact hr

theorem Rests.bounded (h : m.Rests task w bound) : (m.agenda.rounds task).length ≤ bound := by
  cases h with
  | ticking _ _ _ _ _ hr | between _ _ hr => exact Nat.le_of_succ_le hr
  | settles _ h => exact h.bounded

theorem Gathers.continue (h : m.Gathers task g children) {turn : Option Nat} (hc : m.agenda.Continues turn n.agenda)
    (hr : n.agenda.rounds task = m.agenda.rounds task) : n.Gathers task g children := by
  refine ⟨hr ▸ h.begun, h.nodup, fun k hk => ?_⟩
  obtain ⟨t, ht, rfl, j, hj⟩ := h.jobs k hk
  obtain ⟨x, hx, hlater, -⟩ := hc.later ht
  exact ⟨x, hx, hlater.id, j, hlater.work.trans hj⟩

/-- The tasks of a round are those of the gathering that goes by its number. -/
theorem Gathers.children_eq (h : m.Gathers task g children) (ho : m.agenda.Orderly none) {x : Gathering}
    (hx : x ∈ m.agenda.gatherings) (hi : g = x.id) : x.children = children := by
  obtain ⟨y, hy, -, hround⟩ := Agenda.mem_rounds.mp h.begun
  obtain ⟨hyg, rfl⟩ := Prod.mk.inj hround
  have hnodup : (m.agenda.gatherings.map (·.id)).Nodup := ho.numbered ▸ List.nodup_range
  rw [List.inj_on_of_nodup_map hnodup hx hy (hi.symm.trans hyg.symm)]

/-! ## A round begins -/

theorem isDone_continue {a b : Agenda} {turn : Option Nat} (h : a.Continues turn b) (hr : b.roster = a.roster)
    (ha : (a.tasks.map (·.id)).Nodup) (hb : (b.tasks.map (·.id)).Nodup) (hd : a.isDone k) : b.isDone k := by
  cases hk : b.task? k with
  | none => rw [Agenda.isDone, hk]
  | some x =>
      obtain ⟨hx, rfl⟩ := Agenda.task?_mem hk
      obtain ⟨t, ht, he⟩ := List.mem_map.mp (hr ▸ List.mem_map_of_mem hx : (x.id, x.work) ∈ a.roster)
      exact h.stays_done hb ⟨t, ht, (Prod.mk.inj he).1⟩ hd ha

theorem outstanding_continue {turn : Option Nat} (h : m.agenda.Continues turn n.agenda)
    (hr : n.agenda.roster = m.agenda.roster) (hs : ∀ k ∈ n.session.tasks, k ∈ m.session.tasks)
    (hm : (m.agenda.tasks.map (·.id)).Nodup) (hn : (n.agenda.tasks.map (·.id)).Nodup) :
    ∀ k ∈ n.outstanding, k ∈ m.outstanding := by
  intro k hk
  obtain ⟨hk, hopen⟩ := mem_outstanding.mp hk
  refine mem_outstanding.mpr ⟨hs k hk, Bool.eq_false_iff.mpr fun hd => ?_⟩
  rw [isDone_continue h hr hm hn hd] at hopen
  cases hopen

/-- The call returns, or begins a round. -/
inductive Begins (q : LiveSession) (task : Nat) (w : Wait) (n : LiveSession) : Prop
  | returned (hrest : q.outstanding = []) (ht : { id := task, work := .wait w, stage := .done } ∈ n.agenda.tasks)
      (hr : n.agenda.rounds task = q.agenda.rounds task)
  | begun (g : Nat) (ht : { id := task, work := .wait w, stage := .gathering g } ∈ n.agenda.tasks)
      (hsome : q.outstanding ≠ []) (hg : n.Gathers task g q.outstanding) (htimers : ∀ k ∈ n.timers, k ∈ q.timers)
      (hrest : ∀ k ∈ n.outstanding, k ∈ q.outstanding)
      (hr : (n.agenda.rounds task).length = (q.agenda.rounds task).length + 1)

theorem Known.begins (hq : q.Known) (hd : (q.agenda.tasks.map (·.id)).Nodup) {s : TaskStage}
    (ht : { id := task, work := .wait w, stage := s } ∈ q.agenda.tasks) (hs : s ≠ .done) :
    q.Begins task w (q.awaitRest task) := by
  by_cases hrest : q.outstanding = []
  · have heq : q.awaitRest task = q.finish task := by simp [awaitRest, hrest]
    rw [heq]
    refine .returned hrest ?_ (Agenda.rounds_finish ..)
    change _ ∈ (q.agenda.finish task).tasks
    rw [Agenda.finish_tasks]
    exact List.mem_map.mpr ⟨_, ht, if_pos rfl⟩
  · have heq : q.awaitRest task = q.onAgenda fun a => a.gather task q.outstanding := by simp [awaitRest, hrest]
    have hcontinues : q.agenda.Continues (some task) (q.agenda.gather task q.outstanding) :=
      .gather (fun u hu hi => List.inj_on_of_nodup_map hd hu ht hi ▸ hs) _
    have hrounds : (q.agenda.gather task q.outstanding).rounds task =
        q.agenda.rounds task ++ [(q.agenda.gatherings.length, q.outstanding)] := by
      rw [Agenda.rounds_gather, if_pos rfl]
    have hdistinct : ((q.agenda.gather task q.outstanding).tasks.map (·.id)).Nodup := by
      rw [← Agenda.roster_ids, Agenda.roster_gather, Agenda.roster_ids]
      exact hd
    rw [heq]
    refine .begun q.agenda.gatherings.length ?_ hrest ⟨?_, hq.nodup, fun k hk => ?_⟩ (timers_continue hcontinues)
      (outstanding_continue hcontinues (Agenda.roster_gather ..) (fun k hk => hk) hd hdistinct) ?_
    · change _ ∈ (q.agenda.gather task q.outstanding).tasks
      rw [Agenda.gather_tasks]
      exact List.mem_map.mpr ⟨_, ht, if_pos rfl⟩
    · exact hrounds ▸ List.mem_append_right _ (List.mem_singleton_self _)
    · obtain ⟨j, t, ht, rfl, -, hj⟩ := hq.jobs k hk
      obtain ⟨x, hx, hlater, -⟩ := hcontinues.later ht
      exact ⟨x, hx, hlater.id, j, hlater.work.trans hj⟩
    · change ((q.agenda.gather task q.outstanding).rounds task).length = _
      simp [hrounds]

theorem Begins.settles (h : q.Begins task w n) (htimers : q.timers = [])
    (hr : (q.agenda.rounds task).length + 1 ≤ bound) : n.Settles task w bound q.outstanding := by
  cases h with
  | returned _ ht hrounds => exact .returned ht (hrounds ▸ Nat.le_of_succ_le hr)
  | begun g ht _ hg hless hrest hrounds =>
      refine .gathering g ht hg (List.eq_nil_iff_forall_not_mem.mpr fun k hk => ?_) hrest (hrounds ▸ hr)
      simpa [htimers] using hless k hk

theorem Begins.rests (h : q.Begins task w n) (hq : q.Known) (hr : (q.agenda.rounds task).length + 2 ≤ bound) :
    n.Rests task w bound := by
  cases h with
  | returned _ ht hrounds => exact .settles [] (.returned ht (hrounds ▸ Nat.le_of_add_right_le hr))
  | begun g ht _ hg hless hrest hrounds =>
      exact .ticking g _ ht hg (fun k hk => hq.timers k (hless k hk)) (hrounds ▸ hr)

/-! ## What happens by itself -/

/-- While no timer is live, nothing becomes outstanding. -/
theorem Undisturbed.outstanding (hu : m.Undisturbed) (hn : m.Onward n) (htimers : m.timers = []) :
    ∀ k ∈ n.outstanding, k ∈ m.outstanding := by
  have hp := hu.passed hn
  have hf := hu.lived.attentive.follows
  cases hp.passing with
  | quiet htasks hr =>
      exact outstanding_continue hp.continues hr htasks hf.orderly.distinct (hn.follows hf).orderly.distinct
  | fires t ht hticks =>
      have hmem : t.id ∈ m.timers := List.mem_map_of_mem (List.mem_filter.mpr ⟨ht, hticks⟩)
      simp [htimers] at hmem

theorem Undisturbed.no_timers (hu : m.Undisturbed) (hn : m.Onward n) (htimers : m.timers = []) : n.timers = [] :=
  List.eq_nil_iff_forall_not_mem.mpr fun k hk => by
    simpa [htimers] using timers_continue (hu.passed hn).continues k hk

section

variable (hw : w = .idle ∨ w = .flush) (hu : m.Undisturbed) (hn : m.Onward n)

include hu in
/-- Only a call that is about to have a turn has the next one. -/
theorem Undisturbed.not_waiting {s : TaskStage} {rest : List Turn}
    (ht : { id := task, work := .wait w, stage := s } ∈ m.agenda.tasks) (hturns : m.agenda.turns = .task task :: rest) :
    s = .fresh ∨ s = .awake :=
  (hu.lived.attentive.follows.orderly.next_turn hturns).running_stage ht rfl

include hw hu in
/-- The call goes on after a round. -/
theorem Undisturbed.resumes {rest : List Turn} (ht : { id := task, work := .wait w, stage := .awake } ∈ m.agenda.tasks)
    (heq : n = (m.onAgenda fun a => { a with turns := rest }).takeTurn { id := task, work := .wait w, stage := .awake }) :
    m.Begins task w n := by
  have hf := hu.lived.attentive.follows
  have hresume : n = (m.onAgenda fun a => { a with turns := rest }).awaitRest task := by
    rw [heq]
    rcases hw with rfl | rfl <;> rfl
  have hknown : (m.onAgenda fun a => { a with turns := rest }).Known :=
    ⟨hf.known.nodup, hf.known.jobs, hf.known.timers⟩
  rw [hresume]
  cases hknown.begins hf.orderly.distinct ht (by simp) with
  | returned hrest ht hr => exact .returned hrest ht hr
  | begun g ht hsome hg htimers hrest hr => exact .begun g ht hsome hg htimers hrest hr

include hw hu hn

theorem Settles.onward (h : m.Settles task w bound children) : n.Settles task w bound children := by
  have ho := hu.lived.attentive.follows.orderly
  have hp := hu.passed hn
  cases h with
  | gathering g ht hg htimers hrest hr =>
      have hless := hu.outstanding hn htimers
      cases hu.beside hn ht rfl (by simp) with
      | turn rest hturns => rcases hu.not_waiting ht hturns with h | h <;> cases h
      | woken x hx hs hdone htask hrounds =>
          refine .awake htask (hu.no_timers hn htimers) (List.eq_nil_iff_forall_not_mem.mpr fun k hk => ?_)
            (hrounds task ▸ hr)
          have hchild := hrest k (hless k hk)
          rw [← hg.children_eq ho hx (TaskStage.gathering.inj hs)] at hchild
          have hopen := (mem_outstanding.mp hk).2
          rw [hdone k hchild] at hopen
          cases hopen
      | aside htask hrounds =>
          exact .gathering g htask (hg.continue hp.continues hrounds) (hu.no_timers hn htimers)
            (fun k hk => hrest k (hless k hk)) (hrounds ▸ hr)
  | awake ht htimers hrest hr =>
      cases hu.beside hn ht rfl (by simp) with
      | turn rest hturns heq =>
          cases hu.resumes hw ht heq with
          | returned _ ht hrounds => exact .returned ht (hrounds ▸ hr)
          | begun _ _ hsome => exact absurd hrest hsome
      | woken x hx hs => cases hs
      | aside htask hrounds =>
          refine .awake htask (hu.no_timers hn htimers) ?_ (hrounds ▸ hr)
          exact List.eq_nil_iff_forall_not_mem.mpr fun k hk => by simpa [hrest] using hu.outstanding hn htimers k hk
  | returned ht hr =>
      cases hu.beside hn ht rfl (by simp) with
      | turn rest hturns => rcases hu.not_waiting ht hturns with h | h <;> cases h
      | woken x hx hs => cases hs
      | aside htask hrounds => exact .returned htask (hrounds ▸ hr)

theorem Rests.onward (h : m.Rests task w bound) : n.Rests task w bound := by
  have hf := hu.lived.attentive.follows
  have hp := hu.passed hn
  cases h with
  | ticking g children ht hg htimers hr =>
      cases hu.beside hn ht rfl (by simp) with
      | turn rest hturns => rcases hu.not_waiting ht hturns with h | h <;> cases h
      | woken x hx hs hdone htask hrounds =>
          -- a timer that is live now was live at the call, and has ended with its round
          refine .between htask (List.eq_nil_iff_forall_not_mem.mpr fun k hk => ?_) (hrounds task ▸ hr)
          have hchild := htimers k (timers_continue hp.continues k hk)
          rw [← hg.children_eq hf.orderly hx (TaskStage.gathering.inj hs)] at hchild
          exact done_of_fired (hn.follows hf).orderly.distinct (hdone k hchild) hk
      | aside htask hrounds =>
          refine .ticking g children htask (hg.continue hp.continues hrounds) (fun k hk => ?_) (hrounds ▸ hr)
          exact htimers k (timers_continue hp.continues k hk)
  | between ht htimers hr =>
      cases hu.beside hn ht rfl (by simp) with
      | turn rest hturns heq => exact .settles _ ((hu.resumes hw ht heq).settles htimers hr)
      | woken x hx hs => cases hs
      | aside htask hrounds => exact .between htask (hu.no_timers hn htimers) (hrounds ▸ hr)
  | settles children h => exact .settles children (h.onward hw hu hn)

end

end LiveSession
end Formwork
