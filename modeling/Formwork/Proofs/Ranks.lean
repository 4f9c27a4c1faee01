import Formwork.Proofs.Listening
import Formwork.Proofs.TwinTurns

/-!
Every turn leaves less to be done, as long as the listeners only listen: a turn that makes requests starts less than it
ends. The turn of a hidden task does so in any case.
-/

namespace Formwork

namespace LiveSession

variable {hidden : List Nat} {l m : LiveSession} {running : Option (Nat × Work)} {ts us : List World.Transition}
  {w : World} {n k c : Nat} {t : Task} {work : Work}

/-! ## The load after a turn -/

theorem Follows.has (h : l.Follows ts (some (k, work)) []) : l.agenda.Has k work :=
  ⟨h.orderly.distinct, h.present⟩

/-- The rank of an agenda whose next turn is taken by a task. -/
def due (n : Nat) (l : LiveSession) : Nat ×ₗ Nat := toLex (l.agenda.load n, l.agenda.pace + 1)

theorem rank_lt_due (h : m.agenda.load n < l.agenda.load n) : m.agenda.rank n < l.due n :=
  Prod.Lex.toLex_lt_toLex.mpr (.inl h)

/-- Waiting on takes no more than the turn. -/
theorem awaitRest_rank (hn : 0 < n) (h : l.Follows ts (some (t.id, t.work)) []) (ht : t ∈ l.agenda.tasks)
    (hs : t.stage = .awake) : (l.awaitRest t.id).agenda.rank n < l.due n := by
  have hload := Agenda.load_eq (n := n) h.has.distinct ht
  rw [Task.load, hs, TaskStage.left, Nat.mul_one] at hload
  have hpos := Work.weight_pos hn t.work
  simp only [awaitRest]
  split
  · refine rank_lt_due ?_
    change (l.agenda.finish t.id).load n < _
    rw [Agenda.load_finish h.has, hload]
    exact Nat.lt_add_of_pos_right hpos
  · refine Prod.Lex.toLex_lt_toLex.mpr (.inr ⟨?_, ?_⟩)
    · exact (Agenda.load_gather h.has _).trans hload.symm
    · -- none of those that are outstanding has ended
      have hnone : l.outstanding.filter l.agenda.isDone = [] := by
        unfold outstanding
        rw [List.filter_filter, List.filter_eq_nil_iff]
        simp
      change (l.agenda.gather t.id l.outstanding).pace < _
      unfold Agenda.gather
      rw [hnone]
      exact Nat.lt_succ_self _

/-- A turn leaves less to be done, and no new listeners. -/
structure Lightens (n : Nat) (l m : LiveSession) : Prop where
  listeners : ∀ x ∈ m.listeners, x ∈ l.listeners
  ids : m.session.ids = l.session.ids
  rank : m.agenda.rank n < l.due n

/-- A turn starts less than the task that ends with it. -/
theorem Spends.finish (h : Spends n t.id c l m) (hm : m.agenda.Has t.id t.work) (hd : (l.agenda.tasks.map (·.id)).Nodup)
    (ht : t ∈ l.agenda.tasks) (hlt : c < t.load n) : l.Lightens n (m.finish t.id) := by
  refine ⟨fun x hx => h.listeners ▸ hx, h.ids, rank_lt_due ?_⟩
  change (m.agenda.finish t.id).load n < _
  rw [Agenda.load_finish hm, Agenda.load_eq hd ht]
  exact Nat.lt_of_le_of_lt h.others (Nat.add_lt_add_left hlt _)

/-- The same, if the task then waits for others. -/
theorem Spends.gather (h : Spends n t.id c l m) (hm : m.agenda.Has t.id t.work) (hd : (l.agenda.tasks.map (·.id)).Nodup)
    (ht : t ∈ l.agenda.tasks) (hlt : c + t.work.weight n < t.load n) (children : List Nat) :
    l.Lightens n (m.onAgenda fun a => a.gather t.id children) := by
  refine ⟨fun x hx => h.listeners ▸ hx, h.ids, rank_lt_due ?_⟩
  have hothers := h.others
  change (m.agenda.gather t.id children).load n < _
  rw [Agenda.load_gather hm, Agenda.load_eq hd ht]
  omega

theorem Spends.awaitRest (h : Spends n t.id c l m) (hm : m.agenda.Has t.id t.work)
    (hd : (l.agenda.tasks.map (·.id)).Nodup) (ht : t ∈ l.agenda.tasks) (hlt : c + t.work.weight n < t.load n) :
    l.Lightens n (m.awaitRest t.id) := by
  simp only [LiveSession.awaitRest]
  split
  · exact h.finish hm hd ht (Nat.lt_of_le_of_lt (Nat.le_add_right _ _) hlt)
  · exact h.gather hm hd ht hlt _

theorem load_pos (hn : 0 < n) (hs : t.stage = .fresh ∨ t.stage = .awake) : 0 < t.load n := by
  refine Nat.mul_pos (Work.weight_pos hn t.work) ?_
  rcases hs with hs | hs <;> rw [hs] <;> decide

theorem finish_lightens (hd : (l.agenda.tasks.map (·.id)).Nodup) (ht : t ∈ l.agenda.tasks) (hlt : 0 < t.load n) :
    l.Lightens n (l.finish t.id) :=
  (Spends.refl n t.id l).finish (Agenda.has_of_mem hd ht) hd ht hlt

theorem sleep_lightens (hd : (l.agenda.tasks.map (·.id)).Nodup) (ht : t ∈ l.agenda.tasks) (hs : t.stage = .fresh)
    (hn : 0 < n) (pause : Pause) : l.Lightens n (l.onAgenda fun a => a.sleep t.id pause) := by
  refine ⟨fun _ hx => hx, rfl, rank_lt_due ?_⟩
  have hsleep := Agenda.load_sleep (n := n) (Agenda.has_of_mem hd ht) pause
  have hpos := Work.weight_pos hn t.work
  change (l.agenda.sleep t.id pause).load n < _
  rw [Agenda.load_eq hd ht, Task.load, hs, TaskStage.left]
  omega

theorem Lightens.unheard (h : l.Lightens n m) : l.Lightens n { m with listeners := [] } :=
  ⟨by simp, h.ids, h.rank⟩

theorem awaitRest_same (l : LiveSession) (k : Nat) :
    (l.awaitRest k).listeners = l.listeners ∧ (l.awaitRest k).session = l.session := by
  simp only [LiveSession.awaitRest]
  split <;> exact ⟨rfl, rfl⟩

/-- A task goes on waiting. -/
theorem awaitRest_lightens (hn : 0 < n) (h : l.Follows ts (some (t.id, t.work)) []) (ht : t ∈ l.agenda.tasks)
    (hs : t.stage = .awake) : l.Lightens n (l.awaitRest t.id) := by
  obtain ⟨hl, hs'⟩ := l.awaitRest_same t.id
  exact ⟨fun x hx => hl ▸ hx, congrArg Session.ids hs', awaitRest_rank hn h ht hs⟩

/-! ## Evaluations -/

theorem addMark_listeners (l : LiveSession) (recorded : Bool) (stage : Stage) (field : String) (value : Value) :
    (l.addMark recorded stage field value).listeners = l.listeners := by
  unfold addMark
  split <;> rfl

/-- The answer of an evaluation starts and cancels nothing, whatever marks are left before. -/
def Unmoved (l : LiveSession) (task : Nat) (id : String) (token : Nat) (requested : Value) : Prop :=
  ∀ m : LiveSession, m.session = l.session → m.listeners = l.listeners → m.agenda = l.agenda → ∀ ending,
    l.Still (m.apply fun s => s.settle task id token requested ending)

theorem evaluation_lightens (hd : (l.agenda.tasks.map (·.id)).Nodup) (ht : t ∈ l.agenda.tasks)
    (hs : t.stage = .fresh ∨ t.stage = .awake) {id : String} {token : Nat} {requested : Value}
    (hw : t.work = .job (.evaluation id token requested)) (hq : l.Unmoved t.id id token requested) :
    l.Lightens n (l.takeTurn t) := by
  have hone : t.work.weight n = 1 := by
    rw [hw]
    rfl
  have hpos : 0 < t.load n := by
    rw [Task.load, hone, Nat.one_mul]
    rcases hs with hs | hs <;> rw [hs] <;> decide
  have hhas := Agenda.has_of_mem hd ht
  have ended : ∀ m : LiveSession, l.Still m → l.Lightens n (m.finish t.id) := fun m hm =>
    hm.spends.finish (hm.agenda ▸ hhas) hd ht hpos
  -- the evaluation has begun and ends, with or without a mark
  have settled : ∀ m : LiveSession, m.session = l.session → m.listeners = l.listeners → m.agenda = l.agenda →
      ∀ recorded stage ending, l.Lightens n (((m.addMark recorded stage id requested).apply fun s =>
        s.settle t.id id token requested ending).finish t.id) := by
    intro m hms hml hma recorded stage ending
    obtain ⟨hs', ha'⟩ := m.addMark_same recorded stage id requested
    exact ended _ (hq _ (hs'.trans hms) ((m.addMark_listeners ..).trans hml) (ha'.trans hma) ending)
  unfold takeTurn
  rw [hw]
  cases t.cancelled with
  | true =>
      simp only [abandon]
      split
      · exact ended l ⟨rfl, rfl, rfl⟩
      · exact settled l rfl rfl rfl ..
  | false =>
      rcases hs with hs | hs <;> rw [hs]
      · obtain ⟨hs', ha'⟩ := l.addMark_same (l.planFor id requested).recorded .start id requested
        have hl' := l.addMark_listeners (l.planFor id requested).recorded .start id requested
        simp only [LiveSession.begin]
        split
        · exact settled _ hs' hl' ha' ..
        · refine ⟨fun x hx => hl' ▸ hx, congrArg Session.ids hs', rank_lt_due ?_⟩
          change (Agenda.sleep (l.addMark _ _ _ _).agenda _ _).load n < _
          have hsleep := Agenda.load_sleep (n := n) hhas (l.planFor id requested).pause
          rw [ha', Agenda.load_eq hd ht, Task.load, hs, hone]
          rw [hone] at hsleep
          exact Nat.lt_of_le_of_lt hsleep (Nat.add_lt_add_left (by decide) _)
      · exact settled l rfl rfl rfl ..

/-! ## Turns -/

section

variable (hc : l.Calm) (hn : 3 * l.session.ids.length + 4 ≤ n)

include hc hn

/-- The turn of a job. -/
theorem Calm.takeJob (hm : l.Mirrors (some (t.id, t.work)) (w.without t.id)) (hw : History (ts ++ us) w)
    (hv : w.visits = []) (hall : w.errands = l.agenda.errands none) (ht : t ∈ l.agenda.tasks) {j : Job}
    (hj : t.work = .job j) : l.Lightens n (l.takeTurn t) := by
  have hstage := hm.orderly.running_stage ht rfl
  have hd := hm.orderly.distinct
  have hpos : 0 < n := by omega
  have he : { id := t.id, job := j, begun := t.stage ≠ .fresh, cancelled := t.cancelled } ∈ w.errands := by
    rw [hall]
    exact Agenda.mem_errands_of_job ht hj (by rcases hstage with hs | hs <;> simp [hs])
  cases j with
  | evaluation id token requested =>
      refine evaluation_lightens hd ht hstage hj fun m hms hml hma ending => ?_
      have hcalm : m.Calm := fun x hx => hc x (hml ▸ hx)
      have hstill := hcalm.settle t.id id token requested ending
      exact ⟨hstill.listeners.trans hml, hstill.ids.trans (congrArg Session.ids hms), hstill.agenda.trans hma⟩
  | fieldTimer id =>
      unfold LiveSession.takeTurn
      rw [hj]
      cases hcan : t.cancelled with
      | true => exact finish_lightens hd ht (load_pos hpos hstage)
      | false =>
          rcases hstage with hs | hs
          · rw [hs]
            exact sleep_lightens hd ht hs hpos _
          · have hfired := fieldTimerFires_follows hm hw hv he rfl rfl (by simp [hs]) hcan
            have hspent : Spends n t.id 3 l (l.apply fun s => s.fieldTimerFires id) :=
              hc.apply hm (l.session.fieldTimerFires_modest id) (l.session.fieldTimerFires_alike id).ids
                Session.fieldTimerFires_light
            rw [hs]
            refine hspent.finish hfired.has hd ht ?_
            rw [Task.load, hs, hj]
            change 3 < n * 1
            omega
  | formTimer =>
      unfold LiveSession.takeTurn
      rw [hj]
      cases hcan : t.cancelled with
      | true => exact finish_lightens hd ht (load_pos hpos hstage)
      | false =>
          rcases hstage with hs | hs
          · rw [hs]
            exact sleep_lightens hd ht hs hpos _
          · have hfired := formTimerFires_follows hm hw hv he rfl rfl (by simp [hs]) hcan
            have hspent : Spends n t.id 3 l (l.apply Session.formTimerFires) :=
              hc.apply hm l.session.formTimerFires_modest rfl (by simp [Session.formTimerFires])
            have hwalk := hspent.trans ((hspent.calm hc).walk .valued hfired)
            rw [hs]
            refine hwalk.finish (applyEach_follows .valued hfired).has hd ht ?_
            rw [Task.load, hs, hj]
            change 3 + 3 * l.session.ids.length < n * 1
            omega

/-- The turn of a call that waits. -/
theorem Calm.takeWait {wait : Wait} (hf : l.Follows ts (some (t.id, .wait wait)) []) (ht : t ∈ l.agenda.tasks)
    (hw : t.work = .wait wait) : l.Lightens n (l.takeTurn t) := by
  rw [← hw] at hf
  have hd := hf.has.distinct
  have hpos : 0 < n := by omega
  obtain ⟨us, w, hx, hv, hm⟩ := id hf
  have hstage := hm.orderly.running_stage ht rfl
  unfold LiveSession.takeTurn
  rw [hw]
  cases t.cancelled with
  | true => exact finish_lightens hd ht (load_pos hpos hstage)
  | false =>
      rcases hstage with hs | hs <;> rw [hs]
      · have hload : t.load n = n * 3 := by
          rw [Task.load, hs, hw]
          rfl
        have hweight : t.work.weight n = n := by
          rw [hw]
          rfl
        cases wait with
        | idle => exact (Spends.refl n t.id l).awaitRest hf.has hd ht (by omega)
        | flush => exact (hc.flushNow hf).awaitRest (flushNow_follows hf).has hd ht (by omega)
        | sleep micros => exact sleep_lightens hd ht hs hpos _
        | close =>
            have hclosed := close_follows hf
            have hspent : Spends n t.id 3 l (l.apply Session.close) :=
              hc.apply hm l.session.close_modest rfl (by simp [Session.close])
            simp only [beginWait]
            split
            · exact (hspent.finish hclosed.has hd ht (by omega)).unheard
            · exact hspent.gather hclosed.has hd ht (by omega) _
      · cases wait with
        | idle | flush => exact awaitRest_lightens hpos hf ht hs
        | close => exact (finish_lightens hd ht (load_pos hpos (.inr hs))).unheard
        | sleep micros => exact finish_lightens hd ht (load_pos hpos (.inr hs))

end

/-! ## The next turn -/

/-- Less is left to be done after the turn than before it. -/
structure Falls (n : Nat) (l m : LiveSession) : Prop where
  listeners : ∀ x ∈ m.listeners, x ∈ l.listeners
  ids : m.session.ids = l.session.ids
  rank : m.agenda.rank n < l.agenda.rank n

theorem turn_falls (h : l.Follows ts none []) (hm : l.turn? = some m)
    (htask : ∀ t ∈ l.agenda.tasks, ∀ rest, l.agenda.turns = .task t.id :: rest →
      let l' := l.onAgenda fun a => { a with turns := rest }
      l'.Lightens n (l'.takeTurn t)) : l.Falls n m := by
  obtain ⟨us, w, hw, hv, hmirrors⟩ := h
  unfold turn? at hm
  cases hturns : l.agenda.turns with
  | nil => simp [hturns] at hm
  | cons turn rest =>
      simp only [hturns, Option.some.injEq] at hm
      subst hm
      cases turn with
      | report g => exact ⟨fun _ hx => hx, rfl, hmirrors.orderly.rank_report hturns⟩
      | task k =>
          have hdue : l.agenda.rank n = (l.onAgenda fun a => { a with turns := rest }).due n := by
            unfold Agenda.rank due
            congr 2
            simp [onAgenda, Agenda.pace, hturns, Turn.cost, Nat.add_comm]
          have hk : k ∈ l.agenda.due none := by simp [Agenda.due, hturns, Turn.task?]
          simp only
          cases ht : (l.onAgenda fun a => { a with turns := rest }).agenda.task? k with
          | none =>
              refine absurd (hmirrors.orderly.ready k hk) ?_
              have hnone : l.agenda.task? k = none := ht
              simp [Agenda.stage?, hnone]
          | some t =>
              obtain ⟨hmem, rfl⟩ := Agenda.task?_mem ht
              obtain ⟨hl, hi, hr⟩ := htask t hmem rest hturns
              exact ⟨hl, hi, hdue ▸ hr⟩

theorem Calm.turn_falls (hc : l.Calm) (hn : 3 * l.session.ids.length + 4 ≤ n) (h : l.Follows ts none [])
    (hm : l.turn? = some m) : l.Falls n m := by
  refine LiveSession.turn_falls h hm fun t ht rest hturns => ?_
  have hcalm : (l.onAgenda fun a => { a with turns := rest }).Calm := hc
  cases hw : t.work with
  | wait wait => exact hcalm.takeWait hn (h.take_wait ht hturns hw) ht hw
  | job j =>
      obtain ⟨us, w, hx, hv, hmirrors⟩ := h
      exact hcalm.takeJob hn (hmirrors.take_turn ht hturns) hx hv hmirrors.errands ht hw

/-- The turn of a hidden task starts nothing. -/
theorem Twins.turn_falls (h : Twins hidden l l) (hn : 0 < n) (hf : l.Follows ts none []) {turn : Turn}
    {rest : List Turn} (ht : l.agenda.turns = turn :: rest) (hs : turn.shown hidden = false) (hm : l.turn? = some m) :
    l.Falls n m := by
  refine LiveSession.turn_falls hf hm fun t hmem rest' hturns => ?_
  obtain ⟨rfl, rfl⟩ := List.cons.inj (ht.symm.trans hturns)
  have hk : t.id ∈ hidden := by simpa [Turn.shown] using hs
  have hx : (t.id, t.work) ∈ l.agenda.roster := List.mem_map_of_mem hmem
  obtain ⟨us, w, hw, hv, hmirrors⟩ := id hf
  have hstage := (hmirrors.take_turn hmem hturns).orderly.running_stage hmem rfl
  have hd := hmirrors.orderly.distinct
  have hstale := h.left.stale _ hx hk
  cases hwork : t.work with
  | wait wait =>
      have hbegun := h.agenda.left.begun t hmem hk wait hwork
      have hawake := hstage.resolve_left hbegun
      obtain rfl := h.left.flushes _ hx wait hwork
      have hrunning := hf.take_wait hmem hturns hwork
      rw [← hwork] at hrunning
      unfold LiveSession.takeTurn
      rw [hwork]
      cases t.cancelled with
      | true => exact finish_lightens hd hmem (load_pos hn hstage)
      | false =>
          rw [hawake]
          exact awaitRest_lightens hn hrunning hmem hawake
  | job j =>
      rw [hwork] at hstale hx
      cases j with
      | fieldTimer | formTimer => cases hstale
      | evaluation id token requested =>
          refine evaluation_lightens hd hmem hstage hwork fun m hms hml hma ending => ?_
          have hsession : m.session = l.session := hms
          have hdrop := h.left.settle_stale hk hx ending
          rw [← hsession] at hdrop
          have hsame : (m.apply fun s => s.settle t.id id token requested ending) = m := apply_nothing hdrop
          rw [hsame]
          exact ⟨hml, congrArg Session.ids hms, hma⟩

/-- Time that passes wakes tasks. -/
theorem advance_falls (hn : 0 < n) (h : l.Follows ts none []) {limit : Option Nat} (hm : l.advance? limit = some m) :
    l.Falls n m := by
  obtain ⟨a, ha, rfl⟩ := Option.map_eq_some_iff.mp hm
  obtain ⟨x, hx, rfl, -, -⟩ := Agenda.advance?_some ha
  obtain ⟨us, w, hw, hv, hmirrors⟩ := h
  exact ⟨fun _ hx => hx, rfl, hmirrors.orderly.rank_passTo hn hx⟩

end LiveSession
end Formwork
