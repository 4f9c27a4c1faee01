import Formwork.Proofs.LiveTurns
import Formwork.Proofs.TwinSteps

/-!
Turns of twins. The turn of a task that is not hidden comes in both, and the turn of a hidden task in one of them does
not show. A call that waits is hidden after its first turn: how long it waits depends on the setting.
-/

namespace Formwork

namespace Session.Screened

variable {hidden : List Nat} {roster : List (Nat × Work)} {s : Session} {k : Nat} {w : Wait}

/-- A call that waits may be hidden. -/
theorem hide (h : s.Screened hidden roster) (hd : (roster.map (·.1)).Nodup) (hk : (k, .wait w) ∈ roster) :
    s.Screened (k :: hidden) roster := by
  refine ⟨h.nodup, h.below, fun i hi => ?_, h.tracked, h.assigned, fun x hx hi => ?_, h.flushes⟩
  · rcases List.mem_cons.mp hi with rfl | hi
    · exact h.below _ hk
    · exact h.known i hi
  · rcases List.mem_cons.mp hi with hi | hi
    · rw [List.inj_on_of_nodup_map hd hx hk hi]
      trivial
    · exact h.stale x hx hi

/-- A flush is called. -/
theorem call (h : s.Screened hidden roster) : ({ s with nextTask := s.nextTask + 1 } : Session).Screened hidden
    (roster ++ [(s.nextTask, .wait .flush)]) := by
  have old : ∀ x ∈ roster ++ [(s.nextTask, Work.wait .flush)], x.1 < s.nextTask → x ∈ roster := by
    intro x hx hlt
    refine (List.mem_append.mp hx).resolve_right fun hx => ?_
    rw [List.mem_singleton.mp hx] at hlt
    exact Nat.lt_irrefl _ hlt
  have tracked : ∀ k ∈ s.tasks, k < s.nextTask := fun k hk => (h.tracked k hk).1
  refine ⟨h.nodup, fun x hx => ?_, fun k hk => Nat.lt_succ_of_lt (h.known k hk), fun k hk => ?_,
    fun c hc k hk work hx => ?_, fun x hx hk => h.stale x (old x hx (h.known _ hk)) hk, fun x hx w hw => ?_⟩
  · rcases List.mem_append.mp hx with hx | hx
    · exact Nat.lt_succ_of_lt (h.below x hx)
    · rw [List.mem_singleton.mp hx]
      exact Nat.lt_succ_self _
  · have hlt := tracked k hk
    refine ⟨Nat.lt_succ_of_lt hlt, fun x hx hi => ?_⟩
    exact (h.tracked k hk).2 x (old x hx (hi ▸ hlt)) hi
  · exact h.assigned c hc k hk work (old _ hx (tracked k (mem_tasks.mpr (.inr ⟨c, hc, .inr hk⟩))))
  · rcases List.mem_append.mp hx with hx | hx
    · exact h.flushes x hx w hw
    · rw [List.mem_singleton.mp hx] at hw
      exact (Work.wait.inj hw).symm

/-- The answer to a stale request is dropped, and the session stays as it is. -/
theorem settle_stale (h : s.Screened hidden roster) {id : String} {token : Nat} {requested : Value} (hk : k ∈ hidden)
    (hx : (k, .job (.evaluation id token requested)) ∈ roster) (ending : Ending) :
    s.settle k id token requested ending = (s, []) := by
  have hstale : ∀ c ∈ s.slots, c.field.id = id → token < c.token := h.stale _ hx hk
  cases ha : s.slot? id with
  | none => exact settle_none ha ..
  | some a =>
      have hm := slot?_mem ha
      have hlt := hstale a hm (slot?_id ha)
      have hforget : forget a k = a := by
        refine if_neg fun hi => ?_
        obtain ⟨v, hv⟩ := h.assigned a hm k hi _ hx
        cases hv
        exact Nat.lt_irrefl _ hlt
      have hput : s.putSlot a = s := by
        have hmap : s.slots.map (fun t => if t.field.id = a.field.id then a else t) = s.slots := by
          refine (List.map_congr_left fun c hc => ?_).trans (List.map_id _)
          split
          · next hi => exact (List.inj_on_of_nodup_map h.nodup hc hm hi).symm
          · rfl
        exact congrArg (fun slots => { s with slots }) hmap
      have hold : isCurrent a token requested = false := by simp [isCurrent, Nat.ne_of_lt hlt]
      simp only [settle, ha, hforget, hput, hold]
      cases ending <;> rfl

end Session.Screened

namespace LiveSession

variable {hidden : List Nat} {l m : LiveSession} {k : Nat} {t : Task} {w : Wait} {ts : List World.Transition}

/-! ## Waits -/

theorem awaitRest_leave (l : LiveSession) (k : Nat) : ∃ stage gs reports, stage ≠ .fresh ∧
    (∀ g ∈ gs, g.waiter = k) ∧ l.awaitRest k = l.onAgenda fun a => a.leave k stage gs reports := by
  simp only [awaitRest]
  split
  · obtain ⟨reports, he⟩ := l.agenda.finish_leave k
    exact ⟨.done, [], reports, by simp, by simp, congrArg (fun agenda => { l with agenda }) he⟩
  · obtain ⟨g, reports, hg, he⟩ := l.agenda.gather_leave k l.outstanding
    exact ⟨.gathering g.id, [g], reports, by simp, by simpa using hg, congrArg (fun agenda => { l with agenda }) he⟩

theorem Alike.waits (h : Alike hidden l m) (hk : (k, .wait w) ∈ l.agenda.roster) :
    ∀ t ∈ l.agenda.tasks, t.id = k → ∃ w, t.work = .wait w := by
  intro t ht hi
  obtain ⟨u, hu, he⟩ := List.mem_map.mp hk
  obtain ⟨rfl, hw⟩ := Prod.mk.inj he
  rw [List.inj_on_of_nodup_map h.agenda.left.distinct ht hu hi]
  exact ⟨w, hw⟩

theorem Alike.roster_nodup (h : Alike hidden l m) : (l.agenda.roster.map (·.1)).Nodup := by
  rw [Agenda.roster_ids]
  exact h.agenda.left.distinct

/-- From now on it does not show how long the call waits. -/
theorem Twins.awaitRest (h : Twins hidden l m) (hl : (k, .wait w) ∈ l.agenda.roster)
    (hm : (k, .wait w) ∈ m.agenda.roster) : Twins (k :: hidden) (l.awaitRest k) (m.awaitRest k) := by
  obtain ⟨s, gs, xs, hs, hg, he⟩ := l.awaitRest_leave k
  obtain ⟨r, fs, ys, hr, hf, he'⟩ := m.awaitRest_leave k
  have hagree := h.agenda.leave (h.toAlike.waits hl) (h.symm.toAlike.waits hm) hs hr hg hf xs ys
  rw [he, he']
  refine ⟨⟨?_, ?_, hagree, h.session, h.evaluator, h.fieldPause, h.formPause, h.listeners, h.shown⟩, ?_⟩
  · exact (Agenda.roster_leave l.agenda k s gs xs).symm ▸ h.left.hide h.toAlike.roster_nodup hl
  · exact (Agenda.roster_leave m.agenda k r fs ys).symm ▸ h.right.hide h.symm.toAlike.roster_nodup hm
  · exact (Agenda.leave_now ..).trans (h.now.trans (Agenda.leave_now ..).symm)

theorem Twins.startWait (h : Twins hidden l m) : Twins hidden (l.startWait .flush) (m.startWait .flush) := by
  have hid : l.session.nextTask ∉ hidden := fun hk => Nat.lt_irrefl _ (h.left.known _ hk)
  have hagree := h.agenda.start (h.left.task_lt rfl) (h.nextTask_eq ▸ h.right.task_lt rfl) hid (.wait .flush)
  refine ⟨⟨?_, ?_, ?_, ?_, h.evaluator, h.fieldPause, h.formPause, h.listeners, h.shown⟩, h.now⟩
  · exact (Agenda.roster_start l.agenda _ _).symm ▸ h.left.call
  · exact (Agenda.roster_start m.agenda _ _).symm ▸ h.right.call
  · unfold LiveSession.startWait
    rw [h.nextTask_eq]
    exact hagree
  · unfold LiveSession.startWait
    rw [h.session]
    rfl

/-! ## A turn in both -/

theorem Twins.takeTurn (h : Twins hidden l m) (hl : ∀ w, t.work = .wait w → l.Follows [] (some (t.id, .wait w)) [])
    (hm : ∀ w, t.work = .wait w → m.Follows [] (some (t.id, .wait w)) []) :
    ∃ hidden', Twins hidden' (l.takeTurn t) (m.takeTurn t) := by
  cases hwork : t.work with
  | job j =>
      cases hc : t.cancelled with
      | true => simpa only [LiveSession.takeTurn, hwork, hc] using h.abandon t.id t.stage j
      | false =>
          by_cases hs : t.stage = .fresh
          · simpa only [LiveSession.takeTurn, hwork, hc, hs] using h.begin t.id j
          · have hresume := h.resume t.id j
            unfold LiveSession.takeTurn
            rw [hwork, hc]
            cases hstage : t.stage <;> first | exact absurd hstage hs | exact hresume
  | wait w =>
      have hfl := hl w hwork
      have hfm := hm w hwork
      obtain rfl := h.left.flushes _ hfl.present w rfl
      cases hc : t.cancelled with
      | true =>
          refine ⟨hidden, ?_⟩
          simpa only [LiveSession.takeTurn, hwork, hc] using h.finish t.id
      | false =>
          by_cases hs : t.stage = .fresh
          · obtain ⟨hidden', hflush⟩ := h.flushNow
            have hrest := hflush.awaitRest (w := .flush) (flushNow_follows hfl).present (flushNow_follows hfm).present
            refine ⟨t.id :: hidden', ?_⟩
            simpa only [LiveSession.takeTurn, LiveSession.beginWait, hwork, hc, hs] using hrest
          · have hrest := h.awaitRest hfl.present hfm.present
            refine ⟨t.id :: hidden, ?_⟩
            unfold LiveSession.takeTurn
            rw [hwork, hc]
            cases hstage : t.stage <;> first | exact absurd hstage hs | exact hrest

/-- It is the turn of a call that waits. -/
theorem Follows.take_wait (h : l.Follows ts none []) (ht : t ∈ l.agenda.tasks) {rest : List Turn}
    (hturns : l.agenda.turns = .task t.id :: rest) (hw : t.work = .wait w) :
    (l.onAgenda fun a => { a with turns := rest }).Follows ts (some (t.id, .wait w)) [] := by
  obtain ⟨us, x, hx, hv, hm⟩ := h
  exact ⟨us, x, hx, hv, (hm.take_turn ht hturns).take_wait hw hm.errands⟩

/-- The turn of a task that is not hidden. -/
theorem Twins.turn (h : Twins hidden l m) (hl : l.Follows [] none []) (hm : m.Follows [] none []) (hk : k ∉ hidden)
    {rest rest' : List Turn} (ht : l.agenda.turns = .task k :: rest) (ht' : m.agenda.turns = .task k :: rest') :
    ∃ l' m' hidden', l.turn? = some l' ∧ m.turn? = some m' ∧ Twins hidden' l' m' := by
  have hrest : rest.filter (Turn.shown hidden) = rest'.filter (Turn.shown hidden) := by
    have hshown := h.agenda.turns
    have hvisible : (Turn.task k).shown hidden = true := by simpa [Turn.shown] using hk
    rw [Agenda.shownTurns, Agenda.shownTurns, ht, ht', List.filter_cons_of_pos hvisible,
      List.filter_cons_of_pos hvisible] at hshown
    exact (List.cons.inj hshown).2
  have hnext : Twins hidden (l.onAgenda fun a => { a with turns := rest })
      (m.onAgenda fun a => { a with turns := rest' }) :=
    ⟨h.with_agenda (h.agenda.with_turns hrest) rfl rfl, h.now⟩
  have hsame := h.agenda.task?_eq hk
  have htask : (l.onAgenda fun a => { a with turns := rest }).agenda.task? k = l.agenda.task? k := rfl
  have htask' : (m.onAgenda fun a => { a with turns := rest' }).agenda.task? k = l.agenda.task? k := hsame.symm
  unfold turn?
  simp only [ht, ht', htask, htask']
  cases hfound : l.agenda.task? k with
  | none => exact ⟨_, _, hidden, rfl, rfl, hnext⟩
  | some t =>
      obtain ⟨hmem', -⟩ := Agenda.task?_mem (hsame ▸ hfound)
      obtain ⟨hmem, rfl⟩ := Agenda.task?_mem hfound
      obtain ⟨hidden', hturn⟩ := hnext.takeTurn (fun _ hw => hl.take_wait hmem ht hw)
        fun _ hw => hm.take_wait hmem' ht' hw
      exact ⟨_, _, hidden', rfl, rfl, hturn⟩

/-! ## A turn that does not show -/

section

variable (h : Twins hidden l l)

include h

theorem Twins.finish_hidden (hk : k ∈ hidden) : Twins hidden l (l.finish k) :=
  ⟨h.with_agenda (h.agenda.left.finish hk) rfl (Agenda.roster_finish ..), Agenda.finish_now ..⟩

theorem Twins.sleep_hidden (hk : k ∈ hidden) (pause : Pause) : Twins hidden l (l.onAgenda fun a => a.sleep k pause) :=
  ⟨h.with_agenda (h.agenda.left.sleep hk pause) rfl (Agenda.roster_sleep ..), Agenda.sleep_now ..⟩

theorem Twins.awaitRest_hidden (hk : k ∈ hidden) (hw : (k, .wait w) ∈ l.agenda.roster) :
    Twins hidden l (l.awaitRest k) := by
  obtain ⟨s, gs, xs, hs, hg, he⟩ := l.awaitRest_leave k
  have hset := h.agenda.left.setStage hk hs fun t ht hi j hj => by
    obtain ⟨v, hv⟩ := h.toAlike.waits hw t ht hi
    cases hv.symm.trans hj
  have hagree := hset.trans (hset.right.leave (fun g hm => hg g hm ▸ hk) xs)
  rw [he]
  exact ⟨h.with_agenda hagree rfl (Agenda.roster_leave ..), Agenda.leave_now ..⟩

/-- An evaluation whose request is stale ends, and leaves no trace but a mark. -/
theorem Twins.settle_hidden (hk : k ∈ hidden) {id : String} {token : Nat} {requested : Value}
    (hx : (k, .job (.evaluation id token requested)) ∈ l.agenda.roster) (ending : Session.Ending) (recorded : Bool)
    (stage : Stage) : Twins hidden l (((l.addMark recorded stage id requested).apply fun s =>
      s.settle k id token requested ending).finish k) := by
  have hmark := h.marked recorded stage id requested
  obtain ⟨hs, ha⟩ := l.addMark_same recorded stage id requested
  generalize l.addMark recorded stage id requested = n at hmark hs ha
  have hsame : (n.apply fun s => s.settle k id token requested ending) = n :=
    apply_nothing (hmark.right.settle_stale hk (ha ▸ hx) ending)
  rw [hsame]
  exact hmark.trans ((hmark.symm.trans hmark).finish_hidden hk)

theorem Twins.begin_hidden (hk : k ∈ hidden) {id : String} {token : Nat} {requested : Value}
    (hx : (k, .job (.evaluation id token requested)) ∈ l.agenda.roster) :
    Twins hidden l (l.begin k (.evaluation id token requested)) := by
  have hmark := h.marked (l.planFor id requested).recorded .start id requested
  obtain ⟨-, ha⟩ := l.addMark_same (l.planFor id requested).recorded .start id requested
  have hself := hmark.symm.trans hmark
  simp only [LiveSession.begin]
  split
  · exact hmark.trans (hself.settle_hidden hk (ha ▸ hx) ..)
  · exact hmark.trans (hself.sleep_hidden hk _)

/-- The turn of a hidden task. -/
theorem Twins.takeTurn_hidden (ht : t ∈ l.agenda.tasks) (hk : t.id ∈ hidden) : Twins hidden l (l.takeTurn t) := by
  have hx : (t.id, t.work) ∈ l.agenda.roster := List.mem_map_of_mem ht
  have hstale := h.left.stale _ hx hk
  cases hwork : t.work with
  | wait w =>
      rw [hwork] at hx
      obtain rfl := h.left.flushes _ hx w rfl
      have hs := h.agenda.left.begun t ht hk _ hwork
      unfold LiveSession.takeTurn
      rw [hwork]
      cases hc : t.cancelled with
      | true => exact h.finish_hidden hk
      | false => cases hstage : t.stage <;> first | exact absurd hstage hs | exact h.awaitRest_hidden hk hx
  | job j =>
      rw [hwork] at hx hstale
      cases j with
      | fieldTimer | formTimer => cases hstale
      | evaluation id token requested =>
          unfold LiveSession.takeTurn
          rw [hwork]
          cases hc : t.cancelled with
          | true =>
              simp only [LiveSession.abandon]
              split
              · exact h.finish_hidden hk
              · exact h.settle_hidden hk hx ..
          | false =>
              cases t.stage with
              | fresh => exact h.begin_hidden hk hx
              | asleep | awake | gathering | done => exact h.settle_hidden hk hx ..

theorem Twins.turn_hidden {turn : Turn} {rest : List Turn} (ht : l.agenda.turns = turn :: rest)
    (hs : turn.shown hidden = false) : ∃ l', l.turn? = some l' ∧ Twins hidden l l' := by
  have hrest : l.agenda.turns.filter (Turn.shown hidden) = rest.filter (Turn.shown hidden) := by
    rw [ht, List.filter_cons_of_neg (by simpa using hs)]
  have hnext : Twins hidden l (l.onAgenda fun a => { a with turns := rest }) :=
    ⟨h.with_agenda (h.agenda.with_turns hrest) rfl rfl, rfl⟩
  have hself := hnext.symm.trans hnext
  unfold turn?
  simp only [ht]
  refine ⟨_, rfl, hnext.trans ?_⟩
  cases turn with
  | report g =>
      have hagree := hself.agenda.left.report g
      exact ⟨hself.with_agenda hagree rfl (Agenda.roster_report ..), Agenda.report_now ..⟩
  | task k =>
      have hk : k ∈ hidden := by simpa [Turn.shown] using hs
      simp only
      cases hfound : (l.onAgenda fun a => { a with turns := rest }).agenda.task? k with
      | none => exact hself
      | some t =>
          obtain ⟨hmem, rfl⟩ := Agenda.task?_mem hfound
          exact hself.takeTurn_hidden hmem hk

end

end LiveSession
end Formwork
