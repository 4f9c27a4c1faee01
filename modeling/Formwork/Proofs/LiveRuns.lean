import Formwork.Proofs.LiveTurns

/-!
Whatever is done with a live session from outside is a list of events of its world: what holds in every history
holds of every live session.
-/

namespace Formwork

open World

namespace LiveSession

variable {l : LiveSession} {w : World} {ts : List Transition}

theorem drain_follows (fuel : Nat) (h : l.Follows ts none []) : (drain fuel l).Follows ts none [] := by
  induction fuel generalizing l with
  | zero => exact h
  | succ fuel ih =>
      unfold drain
      split
      · next m hm => exact ih (turn_follows h hm)
      · exact h

theorem clock_follows (h : l.Follows ts none []) (time : Nat) :
    (l.onAgenda fun a => { a with now := time }).Follows ts none [] := by
  obtain ⟨us, w, hw, hv, hm⟩ := h
  obtain ⟨hd, ho, hr, ha, hs, hg, hn, hj⟩ := hm.orderly
  have horderly : ({ l.agenda with now := time } : Agenda).Orderly none := ⟨hd, ho, hr, ha, hs, hg, hn, hj⟩
  exact ⟨us, w, hw, hv, hm.onAgenda horderly rfl rfl hm.errands⟩

theorem runUntil_follows (limit fuel : Nat) (h : l.Follows ts none []) :
    (runUntil limit fuel l).Follows ts none [] := by
  induction fuel generalizing l with
  | zero => exact h
  | succ fuel ih =>
      unfold runUntil
      split
      · next m hm => exact ih (turn_follows h hm)
      · split
        · next m hm => exact ih (advance_follows h hm)
        · exact clock_follows h _

theorem runToEnd_follows (task fuel : Nat) (h : l.Follows ts none []) :
    (runToEnd task fuel l).Follows ts none [] := by
  induction fuel generalizing l with
  | zero => exact h
  | succ fuel ih =>
      unfold runToEnd
      split
      · exact h
      · split
        · next m hm => exact ih (turn_follows h hm)
        · split
          · next m hm => exact ih (advance_follows h hm)
          · exact h

/-- A task that waits takes the next number. -/
theorem Mirrors.add_wait (hm : l.Mirrors none w) (hs : w.Sound) (wait : Wait) {a : Agenda}
    (running : Option (Nat × Work)) (ho : a.Orderly (running.map (·.1)))
    (hr : a.roster = l.agenda.roster ++ [(l.session.nextTask, .wait wait)])
    (he : w.errands = a.errands (running.map (·.1))) (hp : ∀ x, running = some x → x ∈ a.roster) :
    Mirrors { l with agenda := a, session := { l.session with nextTask := l.session.nextTask + 1 } } running
      { w with session := { w.session with nextTask := w.session.nextTask + 1 } } where
  session := by rw [hm.session]
  errands := he
  orderly := ho
  present := hp
  below x hx := by
    rcases List.mem_append.mp (hr ▸ hx) with hx | hx
    · exact Nat.lt_succ_of_lt (hm.below x hx)
    · rw [List.mem_singleton.mp hx]
      exact Nat.lt_succ_self _
  tracked k hk x hx hi := by
    have hk' : k ∈ l.session.tasks := hk
    rcases List.mem_append.mp (hr ▸ hx) with hx | hx
    · exact hm.tracked k hk' x hx hi
    · have hlt := hs.tasks_lt (hm.session ▸ hk')
      rw [List.mem_singleton.mp hx] at hi
      rw [hm.session, ← hi] at hlt
      exact absurd hlt (Nat.lt_irrefl _)

theorem startWait_follows (h : l.Follows ts none []) (wait : Wait) : (l.startWait wait).Follows ts none [] := by
  obtain ⟨us, w, hw, hv, hm⟩ := h
  have hn : ∀ t ∈ l.agenda.tasks, t.id < l.session.nextTask := fun t ht => hm.below _ (List.mem_map_of_mem ht)
  have hstep := hw.step .otherTask
  rw [List.append_assoc] at hstep
  refine ⟨_, _, hstep, hv, hm.add_wait hw.sound wait none (hm.orderly.start hn _) (Agenda.roster_start ..)
    ?_ (by simp)⟩
  exact hm.errands.trans (Agenda.start_wait_errands ..).symm

/-- A caller that waits is about to have its first turn. -/
def called (l : LiveSession) (wait : Wait) : LiveSession :=
  { l with
    agenda := { l.agenda with tasks := l.agenda.tasks ++ [{ id := l.session.nextTask, work := .wait wait }] }
    session := { l.session with nextTask := l.session.nextTask + 1 } }

theorem called_follows (h : l.Follows ts none []) (wait : Wait) :
    (l.called wait).Follows ts (some (l.session.nextTask, .wait wait)) [] := by
  obtain ⟨us, w, hw, hv, hm⟩ := h
  have hn : ∀ t ∈ l.agenda.tasks, t.id < l.session.nextTask := fun t ht => hm.below _ (List.mem_map_of_mem ht)
  have hstep := hw.step .otherTask
  rw [List.append_assoc] at hstep
  obtain ⟨ho, he⟩ := hm.orderly.enter hn wait
  have hroster : (l.called wait).agenda.roster = l.agenda.roster ++ [(l.session.nextTask, .wait wait)] :=
    List.map_append ..
  exact ⟨_, _, hstep, hv, hm.add_wait hw.sound wait (some (l.session.nextTask, .wait wait)) ho hroster
    (hm.errands.trans he.symm) fun x hx =>
      hroster ▸ List.mem_append_right _ (List.mem_singleton.mpr (Option.some.inj hx).symm)⟩

theorem waitOut_follows (fuel : Nat) (h : l.Follows ts none []) (wait : Wait) :
    (waitOut fuel l wait).Follows ts none [] :=
  runToEnd_follows _ fuel (beginWait_follows (called_follows h wait))

end LiveSession

/-- The live sessions that come about by what can be done with them from outside. -/
inductive LiveSession.Reachable : LiveSession → Prop
  | opened {s : Session} (hs : s.Opened) (evaluator : Evaluator) (fieldPause formPause : Pause)
      (listeners : List Listener) : Reachable { session := s, evaluator, fieldPause, formPause, listeners }
  | edit {l : LiveSession} (h : l.Reachable) (id : String) (value : Value) : Reachable (l.edit id value).1
  | validateAll {l : LiveSession} (h : l.Reachable) : Reachable l.validateAll.1
  | startWait {l : LiveSession} (h : l.Reachable) (wait : Wait) : Reachable (l.startWait wait)
  | await {l : LiveSession} (h : l.Reachable) (fuel : Nat) (wait : Wait) : Reachable (await fuel l wait)
  | wait {l : LiveSession} (h : l.Reachable) (fuel micros : Nat) : Reachable (wait fuel l micros)
  | addListener {l : LiveSession} (h : l.Reachable) (listener : Listener) : Reachable (l.addListener listener)
  | removeListener {l : LiveSession} (h : l.Reachable) (name : String) : Reachable (l.removeListener name).1

namespace LiveSession

theorem opened_follows {s : Session} (hs : s.Opened) {l : LiveSession} (hl : l.session = s)
    (ha : l.agenda = {}) : l.Follows [] none [] := by
  refine ⟨[], _, .opened hs, rfl, hl.symm, ha ▸ rfl, ha ▸ ?_, by simp, by simp [ha, Agenda.roster], by
    simp [ha, Agenda.roster]⟩
  exact ⟨List.nodup_nil, List.nodup_nil, by simp [Agenda.due], List.nodup_nil, by simp, by simp, rfl, by simp⟩

/-- Whatever is done with a live session, it is the world of a history. -/
theorem Reachable.follows {l : LiveSession} (h : l.Reachable) : l.Follows [] none [] := by
  induction h with
  | opened hs evaluator fieldPause formPause listeners => exact opened_follows hs rfl rfl
  | edit h id value ih => exact edit_follows ih id value
  | validateAll h ih => exact validateAll_follows ih
  | startWait h wait ih => exact startWait_follows ih wait
  | await h fuel wait ih => exact drain_follows fuel (waitOut_follows fuel ih wait)
  | wait h fuel micros ih => exact drain_follows fuel (runUntil_follows _ fuel (drain_follows fuel ih))
  | addListener h listener ih => exact ih.congr rfl rfl
  | removeListener h name ih =>
      unfold LiveSession.removeListener
      split
      · exact ih.congr rfl rfl
      · exact ih

/-- Every phase of a live session tells what its advisory outcome is. -/
theorem Reachable.coherent {l : LiveSession} (h : l.Reachable) : ∀ c ∈ l.session.slots, c.Coherent := by
  obtain ⟨us, w, hw, -, hm⟩ := h.follows
  intro c hc
  exact (hw.sound.slot c (hm.session ▸ hc)).coherent

end LiveSession
end Formwork
