import Formwork.Proofs.Closing
import Formwork.Proofs.StuckFields

/-!
What a closed session still does once its close has returned: nothing, except for the fields that a flush finds pausing
and for a request that had already been superseded when the session was closed.
-/

namespace Formwork

open World Session

section

variable {pre mid post later : List Transition} {t : Transition} {u w : World} {a : Slot} {field : String}

/-- A closed session makes no more requests, but for fields that a flush comes to. -/
theorem History.no_requests (h : History (pre ++ t :: later) w) (hc : t.event = .close)
    (ha : t.before.session.slot? field = some a) (hno : ¬t.FlushedAfter later field) :
    ∀ r ∈ t :: later, ∀ task k v, ¬r.Requests field task k v := by
  intro r hr task k v hreq
  rcases List.mem_cons.mp hr with rfl | hr
  · obtain ⟨-, hs, -⟩ := h.prefix_step
    rw [hc] at hs
    exact hs.close_starts_none _ _ hreq
  · obtain ⟨xs, ys, rfl⟩ := List.append_of_mem hr
    have hsplit : History ((pre ++ t :: xs) ++ r :: ys) w := by simpa using h
    obtain ⟨hb, hs, -⟩ := hsplit.prefix_step
    obtain ⟨c, hremains⟩ := hb.remains hc ha fun hflush => hno (hflush.append _)
    obtain rfl := slot?_id ha
    obtain ⟨-, -, hquiet, -⟩ := hremains.step hs (hb.shut hc) fun hp hev =>
      hno ⟨⟨a, ha, hp⟩, r, List.mem_append_right _ List.mem_cons_self, hev⟩
    exact hquiet task k v hreq

/-- An evaluation that begins after the close has returned was requested before, and a later request superseded it. -/
theorem History.begun_after_close {x : Transition} {xs ys : List Transition} {value : Value}
    (hu : History (pre ++ t :: mid) u) (h : History ((pre ++ t :: mid) ++ (xs ++ x :: ys)) w) (hc : t.event = .close)
    (hr : t.Returned u) (hno : ¬t.FlushedAfter (mid ++ (xs ++ x :: ys)) field) (hcall : x.Calls field value) :
    t.before.session.cancelStale = false ∧ ∃ r ∈ pre, ∃ task token a, r.Requests field task token value ∧
      t.before.session.slot? field = some a ∧ token < a.token ∧ x.event = .begin task := by
  have hsplit : History (((pre ++ t :: mid) ++ xs) ++ x :: ys) w := by simpa using h
  obtain ⟨hb, hs, -⟩ := hsplit.prefix_step
  obtain ⟨e, he, token, hj, hev⟩ := hcall
  have halike : t.before.session.Alike x.before.session := hb.alike (by simp)
  -- the field has a slot, and no evaluation runs for its last request any more
  have hid : field ∈ t.before.session.ids := halike.ids ▸ hb.about e he field (by rw [hj]; rfl)
  obtain ⟨a, ha⟩ := slot?_isSome_iff.mpr hid
  obtain ⟨b, hslot, -⟩ := hu.values_kept hc ha
  have hno' : ¬t.FlushedAfter (mid ++ xs) field := fun hflush =>
    hno (by rw [← List.append_assoc]; exact hflush.append _)
  obtain ⟨hstill, c, hremains, -⟩ := hu.rests hb hc ha hno' hr hslot
  have hcid : c.field.id = field := (slot?_id hremains.slot).trans (slot?_id ha)
  have hm := slot?_mem hremains.slot
  have hle : token ≤ c.token := (hb.sound.slot c hm).token_le e he token value (by rw [hcid, hj])
  have hlt : token < a.token := by
    refine Nat.lt_of_le_of_ne (hremains.token ▸ hle) fun heq => hstill e he value ?_
    rw [slot?_id ha, ← heq, hj]
  -- it is not cancelled, since it begins
  have hopen : e.cancelled = false := by
    rw [hev] at hs
    generalize x.effects = fx at hs
    generalize x.after = v' at hs
    generalize hb' : Event.begin e.id = event at hs
    cases hs with
    | «begin» d _ hd _ hn =>
        obtain hid := Event.begin.inj hb'
        rw [hb.sound.eq_of_id he hd hid]
        exact hn
    | _ => cases hb'
  have hstale : t.before.session.cancelStale = false := by
    refine Bool.eq_false_iff.mpr fun hcs => ?_
    have hcan := hb.tracked.cancelled (halike.cancelStale ▸ hcs) c hm e he token value (by rw [hcid, hj])
      (hremains.token ▸ hlt)
    rw [hopen] at hcan
    cases hcan
  obtain ⟨r, hmem, hreq⟩ := hb.ledger.origin e he field token value hj
  have hafter : History (pre ++ t :: (mid ++ xs)) x.before := by simpa using hb
  refine ⟨hstale, r, ?_, e.id, token, a, hreq, ha, hlt, hev⟩
  have hmem : r ∈ pre ++ t :: (mid ++ xs) := by simpa using hmem
  exact (List.mem_append.mp hmem).resolve_right fun hlater => hafter.no_requests hc ha hno' r hlater _ _ _ hreq

/-- A session that was closed by the transition `t`, from the world `u` on, in which the close has returned. -/
structure Inert (pre : List Transition) (t : Transition) (mid post : List Transition) (u w : World) : Prop where
  values : ∀ field b c, u.session.slot? field = some b → w.session.slot? field = some c → c.value = b.value
  /-- What a field shows stays, unless the field paused when the session was closed and a flush comes to it. -/
  shown : ∀ field b c, u.session.slot? field = some b → w.session.slot? field = some c →
    t.FlushedAfter (mid ++ post) field ∨ c.phase = b.phase ∧ c.advisory = b.advisory
  /-- The evaluator is not called any more, but for such a field, or for a request that a later one had superseded
  before the close, in a session that does not cancel such requests. -/
  calls : ∀ x ∈ post, ∀ field value, x.Calls field value → t.FlushedAfter (mid ++ post) field ∨
    t.before.session.cancelStale = false ∧ ∃ r ∈ pre, ∃ task token a, r.Requests field task token value ∧
      t.before.session.slot? field = some a ∧ token < a.token ∧ x.event = .begin task

/-- Whatever is asked of a closed session after its close has returned, no value changes, no phase and no advisory
changes and the evaluator is not called, but for fields that are flushed and requests that were superseded. -/
theorem closed_session_inert (hu : History (pre ++ t :: mid) u) (h : History ((pre ++ t :: mid) ++ post) w)
    (hc : t.event = .close) (hr : t.Returned u) : Inert pre t mid post u w where
  values field b c hb hw := by
    have hmem : field ∈ t.before.session.ids := (hu.alike (t := t) (by simp)).ids ▸ slot?_isSome_iff.mp ⟨b, hb⟩
    obtain ⟨a, ha⟩ := slot?_isSome_iff.mpr hmem
    obtain ⟨b', hb', hbefore⟩ := hu.values_kept hc ha
    have hlater : History (pre ++ t :: (mid ++ post)) w := by simpa using h
    obtain ⟨c', hc', hafter⟩ := hlater.values_kept hc ha
    obtain rfl := Option.some.inj (hb.symm.trans hb')
    obtain rfl := Option.some.inj (hw.symm.trans hc')
    exact hafter.trans hbefore.symm
  shown field b c hb hw := by
    by_cases hflush : t.FlushedAfter (mid ++ post) field
    · exact .inl hflush
    · have hmem : field ∈ t.before.session.ids := (hu.alike (t := t) (by simp)).ids ▸ slot?_isSome_iff.mp ⟨b, hb⟩
      obtain ⟨a, ha⟩ := slot?_isSome_iff.mpr hmem
      obtain ⟨-, c', hremains, hshown⟩ := hu.rests h hc ha hflush hr hb
      obtain rfl := slot?_id ha
      obtain rfl := Option.some.inj (hw.symm.trans hremains.slot)
      exact .inr hshown
  calls x hx field value hcall := by
    by_cases hflush : t.FlushedAfter (mid ++ post) field
    · exact .inl hflush
    · obtain ⟨xs, ys, rfl⟩ := List.append_of_mem hx
      exact .inr (hu.begun_after_close h hc hr hflush hcall)

end

/-! ## A name that pauses when the session is closed -/

namespace Sample

def pausingEvents : List Event := [.edit "name" (.text "Al"), .begin 0]

theorem pausingEvents_possible : (World.run? { session := profile } pausingEvents).isSome := by decide +kernel

/-- A name has been entered, and its pause goes on. -/
def pausingRun : List Transition × World := (World.run? { session := profile } pausingEvents).get pausingEvents_possible

/-- Then the session is closed. -/
def closing : Transition :=
  ⟨pausingRun.2, .close, pausingRun.2.session.close.2, pausingRun.2.absorb pausingRun.2.session.close⟩

theorem closing_vanish : (closing.after.run? [.vanish 0]).isSome := by decide +kernel

/-- The pause ends without a trace, and the close returns. -/
def closedRun : List Transition × World := (closing.after.run? [.vanish 0]).get closing_vanish

theorem closedRun_flush : (closedRun.2.run? [.flush, .visit, .visit, .begin 1]).isSome := by decide +kernel

/-- A flush comes to both fields, and the request that it makes is evaluated. -/
def flushedRun : List Transition × World :=
  (closedRun.2.run? [.flush, .visit, .visit, .begin 1]).get closedRun_flush

theorem closed_history : History (pausingRun.1 ++ closing :: closedRun.1) closedRun.2 := by
  have hvisits : pausingRun.2.visits = [] := List.isEmpty_iff.mp (by decide +kernel)
  have hclose : History (pausingRun.1 ++ [closing]) closing.after :=
    .step (profile_opened.history pausingEvents_possible) (.close hvisits)
  have hrun := hclose.run? (Option.some_get closing_vanish).symm
  rwa [List.append_assoc] at hrun

theorem flushed_history : History ((pausingRun.1 ++ closing :: closedRun.1) ++ flushedRun.1) flushedRun.2 :=
  closed_history.run? (Option.some_get closedRun_flush).symm

theorem closing_returned : closing.Returned closedRun.2 := by
  have hnone : closedRun.2.errands = [] := List.isEmpty_iff.mp (by decide +kernel)
  simp [Transition.Returned, hnone]

end Sample

theorem closed_session_inert_profile :
    Sample.closing.event = .close ∧ Sample.closing.Returned Sample.closedRun.2 ∧
      Inert Sample.pausingRun.1 Sample.closing Sample.closedRun.1 Sample.flushedRun.1 Sample.closedRun.2
        Sample.flushedRun.2 :=
  ⟨rfl, Sample.closing_returned,
    closed_session_inert Sample.closed_history Sample.flushed_history rfl Sample.closing_returned⟩

/-- A flush after the close makes a request for the name, and the evaluator is called. -/
theorem flushed_after_close : ∃ pre t mid post u w, History (pre ++ t :: mid) u ∧
    History ((pre ++ t :: mid) ++ post) w ∧ t.event = .close ∧ t.Returned u ∧
      (u.session.slot? "name").map (·.phase) = some .debouncing ∧
      (w.session.slot? "name").map (·.phase) = some .pending ∧ ∃ x ∈ post, x.Calls "name" (.text "Al") := by
  refine ⟨_, _, _, _, _, _, Sample.closed_history, Sample.flushed_history, rfl, Sample.closing_returned,
    by decide +kernel, by decide +kernel, ?_⟩
  refine ⟨Sample.flushedRun.1.get ⟨3, by decide +kernel⟩, List.get_mem .., ?_⟩
  exact ⟨⟨1, .evaluation "name" 1 (.text "Al"), false, false⟩, List.mem_of_getElem? (i := 0) rfl, 1, rfl, rfl⟩

end Formwork
