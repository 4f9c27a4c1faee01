import Formwork.Proofs.ClosedSessions
import Formwork.Proofs.Convergence
import Formwork.Proofs.Returns
import Formwork.Proofs.Schedules

/-!
What still runs when a wait for rest or a close returns: evaluations that the session has lost sight of, since a later
request superseded them.
-/

namespace Formwork

open World Session

section

variable {pre mid ts : List Transition} {t : Transition} {w : World} {e : Errand}

/-! ## In every history -/

theorem History.rest_drops (h : History ts w) (hq : w.Quiet) (he : e ∈ w.errands) : e.Dropped w.session :=
  h.dropped he (hq.tasks e he)

/-- What runs ran before a given event, or was started by it or later. -/
theorem History.errand_since (h : History (pre ++ t :: mid) w) (he : e ∈ w.errands) :
    (∃ d ∈ t.before.errands, d.Later e) ∨ ∃ r ∈ t :: mid, .start e.id e.job ∈ r.effects := by
  obtain ⟨-, hs, hafter⟩ := h.prefix_step
  refine hafter.onward (by simp) (P := fun xs w => ∀ e ∈ w.errands,
      (∃ d ∈ t.before.errands, d.Later e) ∨ ∃ r ∈ t :: xs, .start e.id e.job ∈ r.effects) (fun e he => ?_)
    (fun xs v event fx v' _ hs ih e he => ?_) mid w (by simpa using h) e he
  · exact (hs.errand he).imp_right fun hstart => ⟨t, List.mem_cons_self, hstart⟩
  · rcases hs.errand he with ⟨x, hx, hl⟩ | hstart
    · rcases ih x hx with ⟨d, hd, hl'⟩ | ⟨r, hr, hstart⟩
      · exact .inl ⟨d, hd, hl'.trans hl⟩
      · exact .inr ⟨r, List.mem_append_left _ hr, by rw [hl.id, hl.job]; exact hstart⟩
    · exact .inr ⟨_, List.mem_cons_of_mem _ (List.mem_append_right _ (List.mem_singleton_self _)), hstart⟩

/-- The evaluation is one of those requested later, for a field that paused in the session and that a flush comes to. -/
def Errand.Revived (s : Session) (later : List Transition) (e : Errand) : Prop :=
  ∃ field token v c, e.job = .evaluation field token v ∧ s.slot? field = some c ∧ c.phase = .debouncing ∧
    (∃ r ∈ later, r.Requests field e.id token v) ∧ ∃ x ∈ later, x.event = .flush

theorem History.close_drops (h : History (pre ++ t :: mid) w) (hc : t.event = .close) (hr : t.Returned w)
    (he : e ∈ w.errands) : e.Dropped t.before.session ∨ e.Revived t.before.session mid := by
  obtain ⟨hb, hs, -⟩ := h.prefix_step
  rcases h.errand_since he with ⟨d, hd, hl⟩ | ⟨r, hmem, hstart⟩
  · exact .inl ((hb.dropped hd (hl.id ▸ hr e he)).later hl)
  · cases hj : e.job with
    | evaluation field token v =>
        rw [hj] at hstart
        obtain ⟨⟨c, hslot, hp⟩, hflush⟩ : t.FlushedAfter mid field := by
          by_contra hno
          have hid : field ∈ w.session.ids := h.about e he field (by rw [hj]; rfl)
          obtain ⟨a, ha⟩ := slot?_isSome_iff.mpr ((h.alike (t := t) (by simp)).ids ▸ hid)
          exact h.no_requests hc ha hno r hmem e.id token v hstart
        rcases List.mem_cons.mp hmem with rfl | hmem
        · rw [hc] at hs
          exact absurd hstart (hs.close_starts_none _ _)
        · exact .inr ⟨field, token, v, c, hj, hslot, hp, ⟨r, hmem, hstart⟩, hflush⟩
    | fieldTimer | formTimer =>
        refine .inl ⟨fun hlight => (h.shut hc).pauses e he hlight, fun field token v hv => ?_⟩
        rw [hj] at hv
        cases hv

/-- When a call that waits goes on: with it the session of the moment from which the call knows its tasks, and what has
happened since. A close knows those of the moment when it was made, and the others look again. -/
inductive World.Frees (ts : List Transition) (w : World) : Wait → Session → List Transition → Prop
  | idle (hq : w.Quiet) : Frees ts w .idle w.session []
  | flush (hq : w.Quiet) : Frees ts w .flush w.session []
  | close {pre later : List Transition} {t : Transition} (hts : ts = pre ++ t :: later) (hc : t.event = .close)
      (hr : t.Returned w) : Frees ts w .close t.before.session later

theorem History.frees_drops (h : History ts w) {wait : Wait} {s : Session} {later : List Transition}
    (hf : w.Frees ts wait s later) (he : e ∈ w.errands) : e.Dropped s ∨ e.Revived s later := by
  cases hf with
  | idle hq | flush hq => exact .inl (h.rest_drops hq he)
  | close hts hc hr => exact (hts ▸ h).close_drops hc hr he

end

/-! ## When the calls of a live session return -/

namespace LiveSession

variable {l m : LiveSession} {task : Nat} {wait : Wait}

theorem Lived.rests (h : l.Lived) (hm : l.Moves m) (hr : l.Returns m task wait) (hw : wait = .idle ∨ wait = .flush) :
    ∃ ts w, History ts w ∧ m.Mirrors none w ∧ w.Quiet := by
  obtain ⟨us, w, hw', hv, hmirrors⟩ := hm.follows h.attentive.follows
  exact ⟨us, w, hw', hmirrors, (hmirrors.quiet_iff hv).mpr ((h.over hm hr).rest hw)⟩

theorem Lived.closes (h : l.Lived) (hm : l.Moves m) (hr : l.Returns m task .close) :
    ∃ pre t mid w, History (pre ++ t :: mid) w ∧ m.Mirrors none w ∧ t.event = .close ∧ t.Returned w := by
  obtain ⟨tasks, ⟨pre, t, hc, rfl, us, w, hw, -, hmirrors⟩, hdone⟩ := (h.over hm hr).closed rfl
  rw [List.append_assoc] at hw
  refine ⟨pre, t, us, w, hw, hmirrors, hc, fun e he hk => ?_⟩
  have hall : w.errands = m.agenda.errands none := hmirrors.errands
  obtain ⟨x, hx, hxe⟩ := Agenda.mem_errands.mp (hall ▸ he)
  have hstage := Agenda.isDone_iff.mp (hdone e.id hk) x.stage
    (by rw [Agenda.errand?_id hxe, hmirrors.orderly.stage_of_mem hx])
  cases hw : x.work <;> simp [Task.errand?, hw, hstage] at hxe

/-- A call returns at no other moments than those at which it goes on in a history. -/
theorem Lived.frees (h : l.Lived) (hm : l.Moves m) (hr : l.Returns m task wait)
    (hw : wait = .idle ∨ wait = .flush ∨ wait = .close) :
    ∃ ts w s later, History ts w ∧ m.Mirrors none w ∧ w.Frees ts wait s later := by
  rcases hw with rfl | rfl | rfl
  · obtain ⟨ts, w, hw, hmirrors, hq⟩ := h.rests hm hr (.inl rfl)
    exact ⟨ts, w, _, _, hw, hmirrors, .idle hq⟩
  · obtain ⟨ts, w, hw, hmirrors, hq⟩ := h.rests hm hr (.inr rfl)
    exact ⟨ts, w, _, _, hw, hmirrors, .flush hq⟩
  · obtain ⟨pre, t, mid, w, hw, hmirrors, hc, hreturned⟩ := h.closes hm hr
    exact ⟨_, w, _, _, hw, hmirrors, .close rfl hc hreturned⟩

end LiveSession

/-- What still runs when a call goes on that waits for rest or for a close: only what the session had lost sight of by
the moment from which the call knows its tasks, and evaluations that a flush requests after a close. The calls of a live
session return at no other moments. -/
theorem dropped_left_running {wait : Wait} (hw : wait = .idle ∨ wait = .flush ∨ wait = .close) :
    (∀ ts w s later, History ts w → w.Frees ts wait s later → ∀ e ∈ w.errands, e.Dropped s ∨ e.Revived s later) ∧
    ∀ l m task, LiveSession.Lived l → l.Moves m → l.Returns m task wait →
      ∃ ts w s later, History ts w ∧ m.Mirrors none w ∧ w.Frees ts wait s later :=
  ⟨fun _ _ _ _ h hf _ he => h.frees_drops hf he, fun _ _ _ h hm hr => h.frees hm hr hw⟩

/-! ## A name that is completed while it is evaluated -/

namespace LiveSession

/-- The evaluations that have not ended: their fields and requests, how far they have come, and whether they are
cancelled. -/
def evaluating (l : LiveSession) : List (String × Nat × TaskStage × Bool) :=
  l.agenda.tasks.filterMap fun t => match t.work with
    | .job (.evaluation field token _) => if t.stage = .done then none else some (field, token, t.stage, t.cancelled)
    | _ => none

/-- A call that waits may return while an evaluation goes on. -/
def Outlived (cancelStale : Bool) (wait : Wait) (left : String × Nat × TaskStage × Bool) : Prop :=
  ∃ l m task, Lived l ∧ l.session.cancelStale = cancelStale ∧ l.Moves m ∧ l.Returns m task wait ∧ left ∈ m.evaluating

/-- The task of a call that waits, as it is. -/
def waiting? (l : LiveSession) (task : Nat) : Option (Wait × TaskStage × Bool) :=
  (l.agenda.task? task).bind fun t => match t.work with
    | .wait wait => some (wait, t.stage, t.cancelled)
    | .job _ => none

theorem returns_of_waiting {l m : LiveSession} {task : Nat} {wait : Wait} (hl : l.agenda.stage? task ≠ some .done)
    (hm : m.waiting? task = some (wait, .done, false)) : l.Returns m task wait := by
  obtain ⟨x, hx, hm⟩ := Option.bind_eq_some_iff.mp hm
  refine ⟨hl, x, hx, ?_⟩
  cases hw : x.work with
  | wait w =>
      rw [hw] at hm
      obtain ⟨rfl, hs, hc⟩ : w = wait ∧ x.stage = .done ∧ x.cancelled = false := by simpa using hm
      exact ⟨rfl, hc, hs⟩
  | job j =>
      rw [hw] at hm
      cases hm

end LiveSession

namespace Sample

/-- Half of a name is evaluated for half a second, and all of it at once. -/
def halfway (cancelStale : Bool) : LiveSession := .wait 20 ((naming cancelStale).edit "name" (.text "Bo")).1 400000

/-- The name is completed, and its evaluation answers before the first one. -/
def overtaken : LiveSession := .await 20 ((halfway false).edit "name" (.text "Bob")).1 .flush

/-- The name is removed instead, in a session that cancels its evaluation. -/
def removed : LiveSession := ((halfway true).edit "name" (.text "")).1

theorem halfway_reachable (cancelStale : Bool) : (halfway cancelStale).Reachable :=
  .wait (.edit (.opened (naming_opened cancelStale) _ _ _ _) _ _) _ _

theorem overtaken_lived : overtaken.Lived :=
  LiveSession.Reachable.lived (.await (.edit (halfway_reachable false) _ _) _ _)

theorem removed_lived : removed.Lived := LiveSession.Reachable.lived (.edit (halfway_reachable true) _ _)

theorem overtaken_returns {wait : Wait} (hw : wait = .idle ∨ wait = .close) :
    overtaken.Returns (overtaken.enter wait) 5 wait := by
  rcases hw with rfl | rfl <;> exact LiveSession.returns_of_waiting (by decide +kernel) (by decide +kernel)

theorem removed_returns {wait : Wait} (hw : wait = .idle ∨ wait = .close) :
    removed.Returns (removed.enter wait) 2 wait := by
  rcases hw with rfl | rfl <;> exact LiveSession.returns_of_waiting (by decide +kernel) (by decide +kernel)

end Sample

theorem dropped_left_running_name :
    (∃ ts w s later, History ts w ∧ (Sample.overtaken.enter .idle).Mirrors none w ∧ w.Frees ts .idle s later ∧
      ∀ e ∈ w.errands, e.Dropped s ∨ e.Revived s later) ∧
    ∃ ts w s later, History ts w ∧ (Sample.overtaken.enter .close).Mirrors none w ∧ w.Frees ts .close s later ∧
      ∀ e ∈ w.errands, e.Dropped s ∨ e.Revived s later := by
  constructor
  · obtain ⟨hdrops, hlive⟩ := dropped_left_running (.inl (rfl : Wait.idle = _))
    obtain ⟨ts, w, s, later, h, hm, hf⟩ :=
      hlive _ _ _ Sample.overtaken_lived (.enter .idle) (Sample.overtaken_returns (.inl rfl))
    exact ⟨ts, w, s, later, h, hm, hf, hdrops ts w s later h hf⟩
  · obtain ⟨hdrops, hlive⟩ := dropped_left_running (.inr (.inr (rfl : Wait.close = _)))
    obtain ⟨ts, w, s, later, h, hm, hf⟩ :=
      hlive _ _ _ Sample.overtaken_lived (.enter .close) (Sample.overtaken_returns (.inr rfl))
    exact ⟨ts, w, s, later, h, hm, hf, hdrops ts w s later h hf⟩

/-- The first evaluation of the name sleeps on when a wait for rest or a close returns after the second one has
answered. The one that is cancelled when the name is removed has still to take note of that. -/
theorem evaluation_outlives_wait :
    LiveSession.Outlived false .idle ("name", 1, .asleep, false) ∧
    LiveSession.Outlived false .close ("name", 1, .asleep, false) ∧
    LiveSession.Outlived true .idle ("name", 1, .awake, true) ∧
    LiveSession.Outlived true .close ("name", 1, .awake, true) := by
  have overtaken {wait : Wait} (hw : wait = .idle ∨ wait = .close) :
      LiveSession.Outlived false wait ("name", 1, .asleep, false) :=
    ⟨_, _, _, Sample.overtaken_lived, by decide +kernel, .enter wait, Sample.overtaken_returns hw,
      by rcases hw with rfl | rfl <;> decide +kernel⟩
  have removed {wait : Wait} (hw : wait = .idle ∨ wait = .close) :
      LiveSession.Outlived true wait ("name", 1, .awake, true) :=
    ⟨_, _, _, Sample.removed_lived, by decide +kernel, .enter wait, Sample.removed_returns hw,
      by rcases hw with rfl | rfl <;> decide +kernel⟩
  exact ⟨overtaken (.inl rfl), overtaken (.inr rfl), removed (.inl rfl), removed (.inr rfl)⟩

end Formwork
