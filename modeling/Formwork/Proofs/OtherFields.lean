import Formwork.Proofs.Played
import Formwork.Proofs.Shadows

/-!
Steps about one field, and what they are to another one: they leave its slot alone, and on the agenda they concern tasks
that can be left out when one looks at the other field only.
-/

namespace Formwork

def Work.field? : Work → Option String
  | .job j => j.field?
  | .wait _ => none

namespace Session

variable {id : String} {s : Session} {a b : Slot} {r : Stepped}

/-- A step about a field. -/
structure About (id : String) (s : Session) (r : Stepped) : Prop where
  slot : ∀ f ≠ id, r.1.slot? f = s.slot? f
  closed : r.1.closed = s.closed
  cancels : ∀ k, .cancel k ∈ r.2 → ∃ c ∈ s.slots, c.field.id = id ∧ (c.timer = some k ∨ c.inflight = some k)
  starts : ∀ x ∈ Effect.starts r.2, x.2.field? = some id
  shows : ∀ state ∈ Effect.shows r.2, state.field.id = id

namespace About

theorem quiet (id : String) (s : Session) : About id s (s, []) := ⟨fun _ _ => rfl, rfl, by simp, by simp, by simp⟩

theorem put (ha : s.slot? id = some a) (hb : b.field = a.field) (hslots : r.1.slots = (s.putSlot b).slots)
    (hclosed : r.1.closed = s.closed) (hcancels : ∀ k, .cancel k ∈ r.2 → a.timer = some k ∨ a.inflight = some k)
    (hstarts : ∀ x ∈ Effect.starts r.2, x.2.field? = some a.field.id)
    (hshows : ∀ state ∈ Effect.shows r.2, state.field = a.field) : About id s r := by
  obtain rfl := slot?_id ha
  refine ⟨fun f hne => ?_, hclosed, fun k hk => ⟨a, slot?_mem ha, rfl, hcancels k hk⟩, hstarts, fun state hs => ?_⟩
  · have hput := slot?_putSlot_of_ne s (b := b) (hb ▸ hne.symm)
    rw [slot?, hslots]
    exact hput
  · rw [hshows state hs]

end About

theorem Edited.about {value : Value} (ha : s.slot? id = some a) (hmode : s.mode = .field) (h : Edited s a value r) :
    About id s r := by
  cases h with
  | broken e he => exact .put (b := { a with value }) ha rfl rfl rfl (by simp) (by simp) (by simp)
  | cleared o ho hb =>
      refine .put (b := a.cleared value o) ha rfl rfl rfl ?_ (by simp) (by simp [Slot.state, Slot.cleared])
      simp [cancelOf]
  | unadvised o ho hb hadv =>
      refine .put (b := a.checked value o) ha rfl rfl rfl ?_ (by simp) (by simp [Slot.state, Slot.checked])
      simpa [cancelOf] using fun k hk => .inl hk
  | pausedAlone o ho hb hadv hm =>
      refine .put (b := a.paused value o (some s.nextTask)) ha rfl rfl rfl ?_ ?_ (by simp [Slot.state, Slot.paused])
      · simpa [cancelOf] using fun k hk => .inl hk
      · simp [Work.field?, Job.field?]
  | pausedTogether o ho hb hadv hm =>
      rw [hmode] at hm
      cases hm

theorem edit_about (s : Session) (hmode : s.mode = .field) (id : String) (value : Value) :
    About id s (s.edit id value).1 := by
  rcases s.edit_cases id value with ⟨h, -⟩ | ⟨a, ha, -, h⟩
  · exact h ▸ .quiet id s
  · exact h.about ha hmode

theorem fieldTimerFires_about (s : Session) (id : String) : About id s (s.fieldTimerFires id) := by
  cases ha : s.slot? id with
  | none =>
      rw [fieldTimerFires, ha]
      exact .quiet id s
  | some a =>
      rw [fieldTimerFires_some ha, dispatch_untimed ha]
      refine .put (b := ({ a with timer := none } : Slot).requested s.nextTask) ha rfl rfl rfl ?_ ?_ ?_
      · cases s.cancelStale <;> simp [cancelOf]
        exact fun k hk => .inr hk
      · cases s.cancelStale <;> simp [Work.field?, Job.field?]
      · cases s.cancelStale <;> simp [Slot.state, Slot.requested]

theorem settle_about (s : Session) (task : Nat) (id : String) (token : Nat) (requested : Value) (ending : Ending) :
    About id s (s.settle task id token requested ending) := by
  cases ha : s.slot? id with
  | none => exact settle_none ha .. ▸ .quiet id s
  | some a =>
      have hsettled := settle_some ha task token requested ending
      have hfield := forget_field a task
      generalize s.settle task id token requested ending = r at hsettled
      cases hsettled with
      | dropped => exact .put ha hfield rfl rfl (by simp) (by simp) (by simp)
      | committed found =>
          exact .put (b := (forget a task).committed found) ha hfield rfl rfl (by simp) (by simp)
            (by simp [Slot.state, Slot.committed])
      | fellBack =>
          exact .put (b := (forget a task).fellBack) ha hfield rfl rfl (by simp) (by simp)
            (by simp [Slot.state, Slot.fellBack])

end Session

namespace Agenda

variable {f : String} {hidden : List Nat} {a b : Agenda} {s : Session} {r : Stepped} {k d : Nat}

/-! ## Steps on agendas that agree -/

theorem Hides.roster_heeds (h : a.Hides hidden) (hj : ∀ x ∈ a.roster, ∃ j, x.2 = .job j) (hr : s.Modest r) :
    (r.2.foldl heed a).roster = a.roster ++ Effect.starts r.2 := by
  obtain ⟨cancels, job?, shows, hasks⟩ := hr
  have hcancels : (cancels.foldl Agenda.cancel a).roster = a.roster := h.cancels_roster fun _ _ x hx _ => hj x hx
  rw [hasks.effects, List.foldl_append, List.foldl_append, heeds_cancels, heeds_shows]
  cases job? with
  | none => simp [hcancels]
  | some job => simp [heed, roster_start, hcancels]

/-- A step is carried out on both agendas. -/
theorem Agree.heeds (h : a.Agree hidden b) (ha : ∀ x ∈ a.roster, ∃ j, x.2 = .job j)
    (hb : ∀ x ∈ b.roster, ∃ j, x.2 = .job j) (hr : s.Modest r) (hna : ∀ x ∈ a.roster, x.1 < s.nextTask)
    (hnb : ∀ x ∈ b.roster, x.1 < s.nextTask) (hid : s.nextTask ∉ hidden) :
    (r.2.foldl heed a).Agree hidden (r.2.foldl heed b) := by
  obtain ⟨cancels, job?, shows, hasks⟩ := hr
  have hca : ∀ k ∈ cancels, ∀ x ∈ a.roster, x.1 = k → ∃ j, x.2 = .job j := fun _ _ x hx _ => ha x hx
  have hcb : ∀ k ∈ cancels, ∀ x ∈ b.roster, x.1 = k → ∃ j, x.2 = .job j := fun _ _ x hx _ => hb x hx
  have hcancelled := h.cancels cancels hca hcb
  have below : ∀ {c : Agenda}, c.Hides hidden → (∀ k ∈ cancels, ∀ x ∈ c.roster, x.1 = k → ∃ j, x.2 = .job j) →
      (∀ x ∈ c.roster, x.1 < s.nextTask) → ∀ t ∈ (cancels.foldl Agenda.cancel c).tasks, t.id < s.nextTask := by
    intro c hc hj hn t ht
    exact hn (t.id, t.work) (hc.cancels_roster hj ▸ List.mem_map_of_mem ht)
  rw [hasks.effects, List.foldl_append, List.foldl_append, List.foldl_append, List.foldl_append, heeds_cancels,
    heeds_cancels, heeds_shows, heeds_shows]
  cases job? with
  | none => exact hcancelled
  | some job => exact hcancelled.start (below h.left hca hna) (below h.right hcb hnb) hid (.job job)

/-- Cancelling a task that is done changes nothing. -/
theorem Hides.cancel_closed (h : a.Hides hidden) (hj : ∀ x ∈ a.roster, ∃ j, x.2 = .job j)
    (hk : k ∈ hidden ∨ ∀ t ∈ a.tasks, t.id = k → t.stage = .done) : a.Agree hidden (a.cancel k) := by
  rcases hk with hk | hdone
  · exact h.cancel hk fun x hx _ => hj x hx
  · have hsame : a.cancel k = a := by
      cases ht : a.task? k with
      | none => simp [Agenda.cancel, ht]
      | some t =>
          obtain ⟨hm, rfl⟩ := task?_mem ht
          have hs := hdone t hm rfl
          rw [Agenda.cancel_eq h.distinct hm (by simp [hs]), if_pos hs]
    rw [hsame]
    exact h.agree

theorem Hides.cancels_closed (h : a.Hides hidden) (hj : ∀ x ∈ a.roster, ∃ j, x.2 = .job j) (ks : List Nat)
    (hk : ∀ k ∈ ks, k ∈ hidden ∨ ∀ t ∈ a.tasks, t.id = k → t.stage = .done) :
    a.Agree hidden (ks.foldl Agenda.cancel a) := by
  induction ks generalizing a with
  | nil => exact h.agree
  | cons k ks ih =>
      have hone := h.cancel_closed hj (hk k (List.mem_cons_self ..))
      have hroster := h.roster_cancel (k := k) fun x hx _ => hj x hx
      refine hone.trans (ih hone.right (hroster ▸ hj) fun i hi => ?_)
      rcases hk i (List.mem_cons_of_mem _ hi) with hid | hdone
      · exact .inl hid
      · -- a task that is not hidden is as it was
        refine (em (i ∈ hidden)).imp_right fun hid t ht hti => hdone t ?_ hti
        have hshown : t ∈ (a.cancel k).shownTasks hidden := List.mem_filter.mpr ⟨ht, by simpa [hti] using hid⟩
        exact (List.mem_filter.mp (hone.tasks ▸ hshown)).1

theorem roster_passTo (a : Agenda) (d : Nat) : (a.passTo d).roster = a.roster := roster_rings ..

/-! ## What an agenda holds about a field -/

/-- The second agenda holds what the first one holds about the field, and nothing else. -/
structure Excerpt (f : String) (hidden : List Nat) (a b : Agenda) : Prop where
  agree : a.Agree hidden b
  foreign : ∀ k, k ∈ hidden ↔ ∃ x ∈ a.roster, x.1 = k ∧ x.2.field? ≠ some f
  own : ∀ x ∈ b.roster, x ∈ a.roster ∧ x.2.field? = some f
  now : b.now = a.now

namespace Excerpt

variable {turn : Turn} {rest rest' : List Turn}

section

variable (h : a.Excerpt f hidden b)

include h

theorem shown {x : Nat × Work} (hx : x ∈ a.roster) (hf : x.2.field? = some f) : x.1 ∉ hidden := by
  intro hk
  obtain ⟨y, hy, hid, hne⟩ := (h.foreign x.1).mp hk
  have hd : (a.roster.map (·.1)).Nodup := by
    rw [roster, List.map_map]
    exact h.agree.left.distinct
  exact hne (List.inj_on_of_nodup_map hd hy hx hid ▸ hf)

/-- Nothing happens to which tasks there are. -/
theorem with_agree {a' b' : Agenda} (hagree : a'.Agree hidden b') (ha : a'.roster = a.roster)
    (hb : b'.roster = b.roster) (hn : b'.now = a'.now) : a'.Excerpt f hidden b' :=
  ⟨hagree, ha.symm ▸ h.foreign, ha.symm ▸ hb.symm ▸ h.own, hn⟩

theorem heeds_own (hj : ∀ x ∈ a.roster, ∃ j, x.2 = .job j) (hn : ∀ x ∈ a.roster, x.1 < s.nextTask) (hr : s.Modest r)
    (hf : ∀ x ∈ Effect.starts r.2, x.2.field? = some f) :
    (r.2.foldl heed a).Excerpt f hidden (r.2.foldl heed b) := by
  have hjb : ∀ x ∈ b.roster, ∃ j, x.2 = .job j := fun x hx => hj x (h.own x hx).1
  have hid : s.nextTask ∉ hidden := fun hk => by
    obtain ⟨x, hx, he, -⟩ := (h.foreign _).mp hk
    exact Nat.ne_of_lt (hn x hx) he
  refine ⟨h.agree.heeds hj hjb hr hn (fun x hx => hn x (h.own x hx).1) hid, fun k => ?_, fun x hx => ?_, ?_⟩
  · rw [h.foreign, h.agree.left.roster_heeds hj hr]
    constructor
    · rintro ⟨x, hx, hk, hne⟩
      exact ⟨x, List.mem_append_left _ hx, hk, hne⟩
    · rintro ⟨x, hx, hk, hne⟩
      rcases List.mem_append.mp hx with hx | hx
      · exact ⟨x, hx, hk, hne⟩
      · exact absurd (hf x hx) hne
  · rw [h.agree.right.roster_heeds hjb hr] at hx
    rw [h.agree.left.roster_heeds hj hr]
    rcases List.mem_append.mp hx with hx | hx
    · exact ⟨List.mem_append_left _ (h.own x hx).1, (h.own x hx).2⟩
    · exact ⟨List.mem_append_right _ hx, hf x hx⟩
  · rw [heeds_now, heeds_now, h.now]

theorem heeds_foreign (hj : ∀ x ∈ a.roster, ∃ j, x.2 = .job j) (hn : ∀ x ∈ a.roster, x.1 < s.nextTask)
    (hr : s.Modest r) (hc : ∀ k, .cancel k ∈ r.2 → k ∈ hidden ∨ ∀ t ∈ a.tasks, t.id = k → t.stage = .done)
    (hf : ∀ x ∈ Effect.starts r.2, x.2.field? ≠ some f) :
    (r.2.foldl heed a).Excerpt f ((Effect.starts r.2).map (·.1) ++ hidden) b := by
  have hroster := h.agree.left.roster_heeds hj hr
  refine ⟨?_, fun k => ?_, fun x hx => ?_, ?_⟩
  · obtain ⟨cancels, job?, shows, hasks⟩ := hr
    have hcancels := h.agree.left.cancels_closed hj cancels fun k hk => hc k (by simp [hasks.effects, hk])
    have hsame : (cancels.foldl Agenda.cancel a).roster = a.roster :=
      h.agree.left.cancels_roster fun _ _ x hx _ => hj x hx
    have hbelow : ∀ t ∈ (cancels.foldl Agenda.cancel a).tasks, t.id < s.nextTask := fun t ht =>
      hn (t.id, t.work) (hsame ▸ List.mem_map_of_mem ht)
    rw [hasks.effects, List.foldl_append, List.foldl_append, heeds_cancels, heeds_shows]
    cases job? with
    | none => simpa using hcancels.symm.trans h.agree
    | some job =>
        have hstart := hcancels.right.start hbelow job
        have hnew : ∀ {c : Agenda}, (∀ x ∈ c.roster, x.1 < s.nextTask) → ∀ t ∈ c.tasks, t.id = s.nextTask →
            ∀ w, t.work = .wait w → t.stage ≠ .fresh :=
          fun hc t ht he => absurd he (Nat.ne_of_lt (hc (t.id, t.work) (List.mem_map_of_mem ht)))
        have hrest := (hcancels.symm.trans h.agree).hide (k := s.nextTask)
          (fun t ht he => absurd he (Nat.ne_of_lt (hbelow t ht))) (hnew fun x hx => hn x (h.own x hx).1)
        simpa [heed] using hstart.symm.trans hrest
  · rw [hroster, List.mem_append, h.foreign]
    constructor
    · rintro (hk | ⟨x, hx, hk, hne⟩)
      · obtain ⟨x, hx, rfl⟩ := List.mem_map.mp hk
        exact ⟨x, List.mem_append_right _ hx, rfl, hf x hx⟩
      · exact ⟨x, List.mem_append_left _ hx, hk, hne⟩
    · rintro ⟨x, hx, rfl, hne⟩
      rcases List.mem_append.mp hx with hx | hx
      · exact .inr ⟨x, hx, rfl, hne⟩
      · exact .inl (List.mem_map_of_mem hx)
  · rw [hroster]
    exact ⟨List.mem_append_left _ (h.own x hx).1, (h.own x hx).2⟩
  · rw [heeds_now, h.now]

theorem endTurn_own (k : Nat) (pause? : Option Pause) :
    (a.endTurn k pause?).Excerpt f hidden (b.endTurn k pause?) := by
  refine h.with_agree ?_ (roster_endTurn ..) (roster_endTurn ..) ?_
  · cases pause? with
    | none => exact h.agree.finish k
    | some pause => exact h.agree.sleep h.now.symm k pause
  · rw [endTurn_now, endTurn_now, h.now]

theorem endTurn_foreign (hk : k ∈ hidden) (pause? : Option Pause) : (a.endTurn k pause?).Excerpt f hidden b := by
  refine h.with_agree ?_ (roster_endTurn ..) rfl ((endTurn_now ..).symm ▸ h.now)
  cases pause? with
  | none => exact (h.agree.left.finish hk).symm.trans h.agree
  | some pause => exact (h.agree.left.sleep hk pause).symm.trans h.agree

theorem pop_own (ha : a.turns = turn :: rest) (hb : b.turns = turn :: rest') (hs : turn.shown hidden = true) :
    ({ a with turns := rest } : Agenda).Excerpt f hidden { b with turns := rest' } := by
  have hturns := h.agree.turns
  rw [shownTurns, shownTurns, ha, hb, List.filter_cons_of_pos hs, List.filter_cons_of_pos hs] at hturns
  exact h.with_agree (h.agree.with_turns (List.cons.inj hturns).2) rfl rfl h.now

theorem pop_foreign (ha : a.turns = turn :: rest) (hs : turn.shown hidden = false) :
    ({ a with turns := rest } : Agenda).Excerpt f hidden b := by
  have hturns := h.agree.turns
  rw [shownTurns, shownTurns, ha, List.filter_cons_of_neg (by simp [hs])] at hturns
  exact h.with_agree (h.agree.with_turns hturns) rfl rfl h.now

end

/-! ## Time -/

theorem passTo_own (h : a.Excerpt f hidden b) (d : Nat) : (a.passTo d).Excerpt f hidden (b.passTo d) :=
  h.with_agree (h.agree.passTo d) (roster_passTo a d) (roster_passTo b d) (by rw [passTo_now, passTo_now, h.now])

theorem clock (h : a.Excerpt f hidden b) (d : Nat) :
    ({ a with now := max a.now d } : Agenda).Excerpt f hidden { b with now := max b.now d } := by
  have hides : ∀ {c : Agenda} (now : Nat), c.Hides hidden → Agenda.Hides hidden { c with now } := fun now hc =>
    hc.congr rfl rfl ⟨hc.numbered.distinct, hc.numbered.below⟩
  refine h.with_agree ⟨hides _ h.agree.left, hides _ h.agree.right, h.agree.tasks, h.agree.turns, h.agree.alarms⟩ rfl rfl
    ?_
  rw [h.now]

theorem passTo_foreign (h : a.Excerpt f hidden b) (hd : ∀ x ∈ a.shownAlarms hidden, x.1 ≠ d) :
    (a.passTo d).Excerpt f hidden { b with now := max b.now d } := by
  have hclock := h.clock d
  refine hclock.with_agree ?_ (roster_passTo a d) rfl ?_
  · have hpass := (h.agree.left.passTo hd).symm.trans h.agree
    exact ⟨hpass.left, hclock.agree.right, hpass.tasks, hpass.turns, hpass.alarms⟩
  · rw [passTo_now, ← h.now]

end Excerpt

end Agenda
end Formwork
