import Formwork.Proofs.OtherFields

/-!
A live session whose fields are evaluated on their own, and another one that has one of the fields in common with it and
whose tasks are about that field only. What happens to the field happens in both, and what happens to other fields may
happen in the first one while the second one stands still.
-/

namespace Formwork

namespace Effect

variable {id : String} {effects : List Effect}

@[simp] theorem shows_rename (ρ : Nat → Nat) (effects : List Effect) : shows (effects.map (rename ρ)) = shows effects := by
  rw [shows, shows, List.filterMap_map]
  congr 1
  funext e
  cases e <;> rfl

theorem starts_rename (ρ : Nat → Nat) (effects : List Effect) :
    starts (effects.map (rename ρ)) = (starts effects).map fun x => (ρ x.1, x.2) := by
  rw [starts, starts, List.filterMap_map, List.map_filterMap]
  congr 1
  funext e
  cases e <;> rfl

@[simp] theorem requests_rename (ρ : Nat → Nat) (effects : List Effect) :
    requests (effects.map (rename ρ)) = requests effects := by
  rw [requests, requests, starts_rename, List.filterMap_map]
  rfl

theorem requests_about (h : ∀ x ∈ starts effects, x.2.field? = some id) : ∀ x ∈ requests effects, x.1 = id := by
  intro x hx
  obtain ⟨⟨k, work⟩, hy, hreq⟩ := List.mem_filterMap.mp hx
  have hf := h _ hy
  cases work with
  | wait w => cases hf
  | job j =>
      cases j with
      | fieldTimer | formTimer => cases hreq
      | evaluation id' token requested =>
          cases hreq
          exact Option.some.inj hf

end Effect

/-- Of a list whose entries are all of one field, those of a field are all or none. -/
theorem filter_of_field {α : Type} {xs : List α} {id f : String} (field : α → String) (h : ∀ x ∈ xs, field x = id) :
    xs.filter (fun x => field x = f) = if id = f then xs else [] := by
  split
  · next he => exact List.filter_eq_self.mpr fun x hx => decide_eq_true ((h x hx).trans he)
  · next hne => exact List.filter_eq_nil_iff.mpr fun x hx => by simpa [h x hx] using hne

/-- New numbers for the tasks from `n` on. -/
def renumber (ρ : Nat → Nat) (n next : Nat) (k : Nat) : Nat := if k < n then ρ k else next + (k - n)

theorem renumber_of_lt {ρ : Nat → Nat} {n next k : Nat} (hk : k < n) : renumber ρ n next k = ρ k := if_pos hk

theorem renumber_add (ρ : Nat → Nat) (n next i : Nat) : renumber ρ n next (n + i) = next + i := by
  rw [renumber, if_neg (by omega)]
  omega

theorem renumber_injective {ρ : Nat → Nat} {n before next : Nat} (hρ : Function.Injective ρ)
    (hn : ∀ i, ρ (n + i) = before + i) (hle : before ≤ next) : Function.Injective (renumber ρ n next) := by
  -- the old numbers of the tasks before `n` are all below the new ones
  have hlt : ∀ k < n, ρ k < before := by
    intro k hk
    by_contra hge
    have hsame : ρ k = ρ (n + (ρ k - before)) := by
      rw [hn]
      omega
    have heq := hρ hsame
    omega
  intro j k he
  simp only [renumber] at he
  split at he <;> split at he
  · exact hρ he
  · next hj _ =>
      have := hlt j hj
      omega
  · next _ hk =>
      have := hlt k hk
      omega
  · omega

/-- After a step about another field the session has the same slot, and the tasks to come have new numbers. -/
theorem Session.Shadows.renumbered {f id : String} {ρ : Nat → Nat} {s t : Session} {r : Stepped}
    (h : Session.Shadows f ρ s t) (ha : s.About id r) (hne : id ≠ f) (halike : s.Alike r.1)
    (hlt : ∀ c ∈ t.slots, ∀ k, c.timer = some k ∨ c.inflight = some k → k < t.nextTask) :
    Session.Shadows f (renumber ρ t.nextTask r.1.nextTask) r.1 t := by
  refine ⟨?_, h.validator.trans halike.validator.symm, halike.mode.trans h.alone, h.mode.trans halike.mode.symm,
    h.cancelStale.trans halike.cancelStale.symm, h.closed.trans ha.closed.symm, renumber_add ρ _ _⟩
  rw [ha.slot f hne.symm, h.slot]
  cases hs : t.slot? f with
  | none => rfl
  | some c =>
      have hslot : ∀ {x : Option Nat}, (∀ k, x = some k → c.timer = some k ∨ c.inflight = some k) →
          x.map ρ = x.map (renumber ρ t.nextTask r.1.nextTask) := fun hx => Option.map_congr fun k hk =>
        (renumber_of_lt (hlt c (slot?_mem hs) k (hx k hk))).symm
      simp only [Option.map_some, Slot.rename, hslot fun k => .inl, hslot fun k => .inr]

namespace LiveSession

variable {f id : String} {hidden : List Nat} {ρ : Nat → Nat} {l l' m m' n o o' : LiveSession} {r r' : Stepped}
  {t : Task} {j : Job} {limit d : Nat}

/-- What the listeners have been shown of a field. -/
def shownOf (f : String) (l : LiveSession) : List (Nat × String × FieldState) :=
  l.shown.filter fun x => x.2.2.field.id = f

/-- The second session is about one field only, and is what the first one is about that field. -/
structure Isolated (f : String) (hidden : List Nat) (ρ : Nat → Nat) (l m : LiveSession) : Prop where
  inj : Function.Injective ρ
  session : Session.Shadows f ρ l.session m.session
  agenda : l.agenda.Excerpt f hidden (m.agenda.rename ρ)
  evaluator : m.evaluator = l.evaluator
  fieldPause : m.fieldPause = l.fieldPause
  listeners : m.listeners = l.listeners
  shown : m.shown = l.shownOf f

/-! ## What is seen of a step about a field -/

theorem filter_audience {states : List FieldState} (l : LiveSession) (h : ∀ state ∈ states, state.field.id = id) :
    (states.flatMap l.audience).filter (fun x => x.2.2.field.id = f) =
      if id = f then states.flatMap l.audience else [] := by
  refine filter_of_field (fun x : Nat × String × FieldState => x.2.2.field.id) fun x hx => ?_
  obtain ⟨state, hs, hx⟩ := List.mem_flatMap.mp hx
  obtain ⟨listener, -, rfl⟩ := List.mem_map.mp hx
  exact h state hs

theorem Carried.shownOf {g : Agenda → Agenda} (hc : l.Carried r g m) (ha : l.session.About id r) :
    m.shownOf f = l.shownOf f ++ if id = f then (Effect.shows r.2).flatMap l.audience else [] := by
  rw [LiveSession.shownOf, hc.shown, List.filter_append, filter_audience l ha.shows]
  rfl

/-- The step is taken first, and then something is done to the agenda. -/
theorem Carried.split {g : Agenda → Agenda} (hc : l.Carried r g m) :
    ∃ n, l.Carried r (fun a => a) n ∧ m = n.onAgenda g := by
  refine ⟨{ m with agenda := r.2.foldl Agenda.heed l.agenda },
    ⟨hc.session, rfl, hc.shown, hc.evaluator, hc.fieldPause, hc.formPause, hc.listeners⟩, ?_⟩
  rw [onAgenda, ← hc.agenda]

theorem requests_of_about (h : ∀ x ∈ Effect.starts r.2, x.2.field? = some id) (now : Nat) :
    ((Effect.requests r.2).map fun x => (⟨now, x.1, x.2⟩ : TimedRequest)).filter (fun x => x.field = f) =
      if id = f then (Effect.requests r.2).map fun x => (⟨now, x.1, x.2⟩ : TimedRequest) else [] := by
  refine filter_of_field TimedRequest.field fun x hx => ?_
  obtain ⟨y, hy, rfl⟩ := List.mem_map.mp hx
  exact Effect.requests_about h y hy

theorem turnOf_about (l : LiveSession) (t : Task) (hj : j.field? = some id) : l.session.About id (l.turnOf t j).1 := by
  rcases l.turnOf_cases t j with h | ⟨id', rfl, h⟩ | ⟨id', token, requested, ending, rfl, h⟩
  · exact h ▸ .quiet id l.session
  · obtain rfl := Option.some.inj hj
    exact h ▸ l.session.fieldTimerFires_about id'
  · obtain rfl := Option.some.inj hj
    exact h ▸ l.session.settle_about ..

/-- What a step about another field cancels is hidden, or is done. -/
theorem Driven.cancels_foreign (h : o.Driven l) {b : Agenda} (hx : l.agenda.Excerpt f hidden b) (ha : l.session.About id r)
    (hne : id ≠ f) {k : Nat} (hk : .cancel k ∈ r.2) : k ∈ hidden ∨ ∀ t ∈ l.agenda.tasks, t.id = k → t.stage = .done := by
  refine (em (k ∈ hidden)).imp_right fun hid t ht hti => ?_
  by_contra hdone
  obtain ⟨j, hj⟩ := h.mem_job ht
  obtain ⟨c, hc, rfl, htask⟩ := ha.cancels k hk
  subst hti
  have hfield : j.field? = some c.field.id := by
    rcases htask with htask | htask
    · exact congrArg Job.field? (h.follows.timer_job ht hj hdone hc htask)
    · obtain ⟨token, v, rfl⟩ := h.follows.inflight_job ht hj hdone hc htask
      rfl
  refine hid ((hx.foreign t.id).mpr ⟨_, List.mem_map_of_mem ht, rfl, ?_⟩)
  rw [hj, Work.field?, hfield]
  exact fun he => hne (Option.some.inj he)

namespace Isolated

/-! ## Steps -/

theorem with_agenda (h : Isolated f hidden ρ l m) {a b : Agenda} (hab : a.Excerpt f hidden (b.rename ρ)) :
    Isolated f hidden ρ { l with agenda := a } { m with agenda := b } :=
  ⟨h.inj, h.session, hab, h.evaluator, h.fieldPause, h.listeners, h.shown⟩

/-- A step about the field is taken in both. -/
theorem along (h : Isolated f hidden ρ l m) (hj : ∀ x ∈ l.agenda.roster, ∃ j, x.2 = .job j)
    (hn : ∀ x ∈ l.agenda.roster, x.1 < l.session.nextTask) (hp : m.agenda.Plain) (hr : l.session.Modest r)
    (ha : l.session.About f r) (hmatch : Session.Matches f ρ r r') (hc : l.Carried r (fun a => a) l')
    (hc' : m.Carried r' (fun a => a) m') : Isolated f hidden ρ l' m' := by
  refine ⟨h.inj, hc.session ▸ hc'.session ▸ hmatch.session, ?_, ?_, ?_, ?_, ?_⟩
  · have hheeds := h.agenda.heeds_own hj hn hr ha.starts
    have hrename := Agenda.heeds_rename h.inj hp r'.2
    rw [← hmatch.effects] at hrename
    rw [hc.agenda, hc'.agenda, hrename]
    exact hheeds
  · rw [hc.evaluator, hc'.evaluator, h.evaluator]
  · rw [hc.fieldPause, hc'.fieldPause, h.fieldPause]
  · rw [hc.listeners, hc'.listeners, h.listeners]
  · have hnow : m.now = l.now := h.agenda.now
    have haudience : m.audience = l.audience := by
      funext state
      rw [audience, audience, h.listeners, hnow]
    rw [hc.shownOf ha, if_pos rfl, hc'.shown, h.shown, haudience, hmatch.effects, Effect.shows_rename]

/-- A step about another field is taken in the first session. -/
theorem aside (h : Isolated f hidden ρ l m) (hj : ∀ x ∈ l.agenda.roster, ∃ j, x.2 = .job j)
    (hn : ∀ x ∈ l.agenda.roster, x.1 < l.session.nextTask) (hr : l.session.Modest r) (ha : l.session.About id r)
    (hne : id ≠ f) (halike : l.session.Alike r.1)
    (hcancels : ∀ k, .cancel k ∈ r.2 → k ∈ hidden ∨ ∀ t ∈ l.agenda.tasks, t.id = k → t.stage = .done)
    (hm : o.Driven m) (hc : l.Carried r (fun a => a) l') :
    ∃ hidden' ρ', (∀ k ∈ hidden, k ∈ hidden') ∧ Isolated f hidden' ρ' l' m := by
  have hle : l.session.nextTask ≤ r.1.nextTask := by
    obtain ⟨cancels, job?, shows, hasks⟩ := hr
    rw [hasks.next]
    exact Nat.le_add_right ..
  have hsame : ∀ {x : Nat × Work}, x ∈ m.agenda.roster →
      ρ x.1 = renumber ρ m.session.nextTask r.1.nextTask x.1 := fun hx => (renumber_of_lt (hm.below _ hx)).symm
  have hrename : m.agenda.rename ρ = m.agenda.rename (renumber ρ m.session.nextTask r.1.nextTask) := by
    refine Agenda.rename_congr (fun t ht => hsame (List.mem_map_of_mem ht)) (fun k hk => ?_) fun x hx => ?_
    · obtain ⟨t, ht, rfl, -⟩ := hm.task_of_turn hk
      exact hsame (List.mem_map_of_mem ht)
    · obtain ⟨t, ht, htx⟩ := hm.task_of_alarm hx
      exact htx ▸ hsame (List.mem_map_of_mem ht)
  refine ⟨(Effect.starts r.2).map (·.1) ++ hidden, renumber ρ m.session.nextTask r.1.nextTask,
    fun k hk => List.mem_append_right _ hk, ?_⟩
  refine ⟨renumber_injective h.inj h.session.next hle, ?_, ?_, ?_, ?_, ?_, ?_⟩
  · rw [hc.session]
    exact h.session.renumbered ha hne halike fun c hc k hk => hm.slot_lt hc hk
  · rw [hc.agenda, ← hrename]
    refine h.agenda.heeds_foreign hj hn hr hcancels fun x hx he => hne ?_
    rw [ha.starts x hx] at he
    exact Option.some.inj he
  · rw [hc.evaluator, h.evaluator]
  · rw [hc.fieldPause, h.fieldPause]
  · rw [hc.listeners, h.listeners]
  · rw [hc.shownOf ha, if_neg hne, List.append_nil, h.shown]

/-! ## Turns -/

theorem planFor (h : Isolated f hidden ρ l m) (requested : Value) : m.planFor f requested = l.planFor f requested := by
  rw [LiveSession.planFor, LiveSession.planFor, h.session.slot, h.evaluator]
  cases m.session.slot? f <;> rfl

/-- The turn of a task that is in both comes to the same. -/
theorem turnOf (h : Isolated f hidden ρ l m) (t : Task) (hj : j.field? = some f) :
    Session.Matches f ρ (l.turnOf (t.rename ρ) j).1 (m.turnOf t j).1 ∧
      (m.turnOf t j).2 = (l.turnOf (t.rename ρ) j).2 := by
  have hs : (t.rename ρ).stage = t.stage := rfl
  have hc : (t.rename ρ).cancelled = t.cancelled := rfl
  have quiet := h.session.quiet
  cases j with
  | formTimer => cases hj
  | fieldTimer id =>
      obtain rfl := Option.some.inj hj
      simp only [LiveSession.turnOf, hs, hc]
      split
      · exact ⟨quiet, rfl⟩
      · split
        · exact ⟨quiet, congrArg some h.fieldPause⟩
        · exact ⟨h.session.fieldTimerFires, rfl⟩
  | evaluation id token requested =>
      obtain rfl := Option.some.inj hj
      have settle := h.session.settle h.inj t.id token requested
      simp only [LiveSession.turnOf, hs, hc, h.planFor]
      split
      · split
        · exact ⟨quiet, rfl⟩
        · split
          · exact ⟨settle _, rfl⟩
          · exact ⟨quiet, rfl⟩
      · exact ⟨settle _, rfl⟩

/-- A task of the second session is about the field. -/
theorem own (h : Isolated f hidden ρ l m) (ht : t ∈ m.agenda.tasks) :
    (ρ t.id, t.work) ∈ l.agenda.roster ∧ t.work.field? = some f ∧ ρ t.id ∉ hidden := by
  have hmem : (ρ t.id, t.work) ∈ (m.agenda.rename ρ).roster := by
    rw [Agenda.roster_rename]
    exact List.mem_map_of_mem (List.mem_map_of_mem ht)
  obtain ⟨hroster, hf⟩ := h.agenda.own _ hmem
  exact ⟨hroster, hf, h.agenda.shown hroster hf⟩

theorem turns_shown (h : Isolated f hidden ρ l m) (hm : o.Driven m) :
    l.agenda.shownTurns hidden = m.agenda.turns.map (Turn.rename ρ) := by
  refine h.agenda.agree.turns.trans (List.filter_eq_self.mpr fun turn ht => ?_)
  obtain ⟨turn, hturn, rfl⟩ := List.mem_map.mp ht
  obtain ⟨k, rfl⟩ := hm.plain.turns turn hturn
  obtain ⟨t, hmem, rfl, -⟩ := hm.task_of_turn hturn
  exact decide_eq_true (h.own hmem).2.2

/-- It is the turn of a task about another field. -/
theorem turn_foreign (h : Isolated f hidden ρ l m) (hl : o.Driven l) (hm : o'.Driven m) (ht : t ∈ l.agenda.tasks)
    (hj : t.work = .job j) (hid : j.field? = some id) (hne : id ≠ f)
    (hturn : l.Turned t (l.turnOf t j).1 (l.turnOf t j).2 l') (halike : l.session.Alike l'.session) :
    ∃ hidden' ρ', Isolated f hidden' ρ' l' m := by
  obtain ⟨rest, hturns, hc⟩ := hturn.carried
  obtain ⟨n, hn, rfl⟩ := hc.split
  have hforeign : t.id ∈ hidden := by
    refine (h.agenda.foreign t.id).mpr ⟨_, List.mem_map_of_mem ht, rfl, ?_⟩
    rw [hj, Work.field?, hid]
    exact fun he => hne (Option.some.inj he)
  have hpop : Isolated f hidden ρ (l.onAgenda fun a => { a with turns := rest }) m :=
    h.with_agenda (h.agenda.pop_foreign hturns (by simpa [Turn.shown] using hforeign))
  have habout := l.turnOf_about t hid
  obtain ⟨hidden', ρ', hsub, hstep⟩ := hpop.aside hl.jobs hl.below hturn.modest habout hne
    (hn.session ▸ halike) (fun k hk => hl.cancels_foreign h.agenda habout hne hk) hm hn
  exact ⟨hidden', ρ', hstep.with_agenda (hstep.agenda.endTurn_foreign (hsub _ hforeign) _)⟩

/-- It is the turn of a task about the field. -/
theorem turn_own (h : Isolated f hidden ρ l m) (hl : o.Driven l) (hm : o'.Driven m) (ht : t ∈ l.agenda.tasks)
    (hj : t.work = .job j) (hid : j.field? = some f) (hturn : l.Turned t (l.turnOf t j).1 (l.turnOf t j).2 l') :
    ∃ m', m.turn? = some m' ∧ Isolated f hidden ρ l' m' ∧ m.requestsUntil m' = l.requestsUntil l' := by
  obtain ⟨rest, hturns, hc⟩ := hturn.carried
  obtain ⟨n, hn, rfl⟩ := hc.split
  have hshown : t.id ∉ hidden := h.agenda.shown (x := (t.id, t.work)) (List.mem_map_of_mem ht) (hj ▸ hid)
  have hmatch := h.turns_shown hm
  rw [Agenda.shownTurns, hturns, List.filter_cons_of_pos (by simpa [Turn.shown] using hshown)] at hmatch
  -- the other session has a turn to take, which is that of the same task
  have hsome : ∃ m', m.turn? = some m' := by
    refine Option.ne_none_iff_exists'.mp fun hnone => ?_
    rw [turn?_eq_none.mp hnone] at hmatch
    cases hmatch
  obtain ⟨m', hm'⟩ := hsome
  obtain ⟨u, hu, i, hi, -, hturn'⟩ := hm.turned_alone (h.session.mode.trans h.session.alone) hm'
  obtain ⟨rest', hturns', hc'⟩ := hturn'.carried
  obtain ⟨n', hn', rfl⟩ := hc'.split
  rw [hturns', List.map_cons] at hmatch
  obtain ⟨hhead, -⟩ := List.cons.inj hmatch
  have hk : t.id = ρ u.id := Turn.task.inj hhead
  have htask := h.agenda.agree.task?_eq hshown
  rw [hturn.task, hk, Agenda.task?_rename h.inj, hturn'.task] at htask
  obtain rfl : t = u.rename ρ := Option.some.inj htask
  obtain rfl : j = i := Work.job.inj (hj.symm.trans hi)
  have hpop : Isolated f hidden ρ (l.onAgenda fun a => { a with turns := rest })
      (m.onAgenda fun a => { a with turns := rest' }) :=
    h.with_agenda (h.agenda.pop_own hturns (congrArg (List.map _) hturns') (by simpa [Turn.shown] using hshown))
  obtain ⟨hstep, hpause⟩ := h.turnOf u hid
  have hplain : (m.onAgenda fun a => { a with turns := rest' }).agenda.Plain := hm.plain.pop hturns'
  have halong := hpop.along hl.jobs hl.below hplain hturn.modest (l.turnOf_about _ hid) hstep hn hn'
  refine ⟨_, hm', halong.with_agenda ?_, ?_⟩
  · have hended : n'.agenda.Plain := hn'.agenda ▸ hplain.heeds _
    have hend := halong.agenda.endTurn_own (ρ u.id) (m.turnOf u j).2
    rw [← Agenda.endTurn_rename h.inj hended, hpause] at hend
    rw [hpause]
    exact hend
  · have hnow : m.now = l.now := h.agenda.now
    rw [hturn'.requests hm, hturn.requests hl, hstep.effects, Effect.requests_rename, hnow]

/-! ## Time -/

/-- Every alarm of the second session goes off in the first one, too. -/
theorem due_shown (h : Isolated f hidden ρ l m) (hm : o.Driven m) {x : Alarm} (hx : x ∈ m.agenda.alarms) :
    ∃ y ∈ l.agenda.shownAlarms hidden, y.1 = x.due := by
  obtain ⟨t, ht, htx⟩ := hm.task_of_alarm hx
  have hhidden : ρ x.task ∉ hidden := htx ▸ (h.own ht).2.2
  rw [h.agenda.agree.alarms]
  exact mem_shownAlarms.mpr ⟨x.rename ρ, List.mem_map_of_mem hx, hhidden, rfl⟩

theorem shown_due (h : Isolated f hidden ρ l m) (hd : ∃ y ∈ l.agenda.shownAlarms hidden, y.1 = d) :
    ∃ x ∈ m.agenda.alarms, x.due = d := by
  rw [h.agenda.agree.alarms] at hd
  obtain ⟨y, hy, -, rfl⟩ := mem_shownAlarms.mp hd
  obtain ⟨x, hx, rfl⟩ := List.mem_map.mp hy
  exact ⟨x, hx, rfl⟩

theorem turn?_none (h : Isolated f hidden ρ l m) (hm : o.Driven m) (ht : l.turn? = none) : m.turn? = none := by
  have hturns := h.turns_shown hm
  rw [Agenda.shownTurns, turn?_eq_none.mp ht] at hturns
  exact turn?_eq_none.mpr (List.map_eq_nil_iff.mp hturns.symm)

/-- An alarm of the field goes off, perhaps among others. -/
theorem alarms_own (h : Isolated f hidden ρ l m) (hm : o.Driven m) (hfirst : ∀ x ∈ l.agenda.alarms, d ≤ x.due)
    (hd : d ≤ limit) (hshown : ∃ y ∈ l.agenda.shownAlarms hidden, y.1 = d) :
    m.advance? (some limit) = some { m with agenda := m.agenda.passTo d } ∧
      Isolated f hidden ρ { l with agenda := l.agenda.passTo d } { m with agenda := m.agenda.passTo d } := by
  obtain ⟨x, hx, hxd⟩ := h.shown_due hshown
  have hsome : ∃ b, m.agenda.advance? (some limit) = some b := by
    refine Option.ne_none_iff_exists'.mp fun hnone => ?_
    obtain ⟨n, hn, hlt⟩ := Agenda.advance?_eq_none.mp hnone x hx
    cases hn
    omega
  obtain ⟨b, hb⟩ := hsome
  obtain ⟨y, hy, rfl, hleast, -⟩ := Agenda.advance?_some hb
  have hyd : y.due = d := by
    obtain ⟨z, hz, hzy⟩ := h.due_shown hm hy
    obtain ⟨w, hw, -, hwz⟩ := mem_shownAlarms.mp ⟨z, hz, rfl⟩
    have hge := hfirst w hw
    have hle := hleast x hx
    omega
  refine ⟨?_, h.with_agenda ?_⟩
  · rw [advance?, hb, hyd]
    rfl
  · rw [Agenda.passTo_rename h.inj]
    exact h.agenda.passTo_own d

/-- Only alarms of other fields go off. -/
theorem alarms_foreign (h : Isolated f hidden ρ l m) (hm : o.Driven m) (hfirst : ∀ x ∈ l.agenda.alarms, d ≤ x.due)
    (hnone : ∀ y ∈ l.agenda.shownAlarms hidden, y.1 ≠ d) : m.advance? (some d) = none ∧
      Isolated f hidden ρ { l with agenda := l.agenda.passTo d } (m.clockTo d) := by
  refine ⟨?_, h.with_agenda (h.agenda.passTo_foreign hnone)⟩
  rw [advance?, Option.map_eq_none_iff]
  refine Agenda.advance?_eq_none.mpr fun x hx => ⟨d, rfl, ?_⟩
  obtain ⟨y, hy, hyx⟩ := h.due_shown hm hx
  obtain ⟨z, hz, -, hzy⟩ := mem_shownAlarms.mp ⟨y, hy, rfl⟩
  have hge := hfirst z hz
  have hne := hnone y hy
  omega

theorem stops (h : Isolated f hidden ρ l m) (hm : o.Driven m) (hl : l.tick? limit = none) :
    m.tick? limit = none ∧ Isolated f hidden ρ (l.clockTo limit) (m.clockTo limit) := by
  obtain ⟨ht, ha⟩ := tick?_eq_none.mp hl
  rw [advance?, Option.map_eq_none_iff, Agenda.advance?_eq_none] at ha
  refine ⟨tick?_eq_none.mpr ⟨h.turn?_none hm ht, ?_⟩, h.with_agenda (h.agenda.clock limit)⟩
  rw [advance?, Option.map_eq_none_iff, Agenda.advance?_eq_none]
  intro x hx
  obtain ⟨y, hy, hyx⟩ := h.due_shown hm hx
  obtain ⟨z, hz, -, hzy⟩ := mem_shownAlarms.mp ⟨y, hy, rfl⟩
  obtain ⟨n, hn, hlt⟩ := ha z hz
  exact ⟨n, hn, by omega⟩

/-! ## Edits -/

theorem edit_own (h : Isolated f hidden ρ l m) (hl : o.Driven l) (hm : o'.Driven m) (value : Value) :
    Isolated f hidden ρ (l.edit f value).1 (m.edit f value).1 :=
  h.along hl.jobs hl.below hm.plain (l.session.edit_modest f value) (l.session.edit_about h.session.alone f value)
    (h.session.edit value) (hl.calm.edit_carried f value) (hm.calm.edit_carried f value)

theorem edit_foreign (h : Isolated f hidden ρ l m) (hl : o.Driven l) (hm : o'.Driven m) (hne : id ≠ f) (value : Value) :
    ∃ hidden' ρ', Isolated f hidden' ρ' (l.edit id value).1 m := by
  have habout := l.session.edit_about h.session.alone id value
  obtain ⟨hidden', ρ', -, hstep⟩ := h.aside hl.jobs hl.below (l.session.edit_modest id value) habout hne
    (l.session.edit_alike id value) (fun k hk => hl.cancels_foreign h.agenda habout hne hk) hm
    (hl.calm.edit_carried id value)
  exact ⟨hidden', ρ', hstep⟩

end Isolated

/-- As long as there are no tasks, a session is the same as itself as far as any field goes. -/
theorem Isolated.refl {s : Session} (hmode : s.mode = .field) (evaluator : Evaluator) (fieldPause formPause : Pause)
    (listeners : List Listener) (f : String) :
    Isolated f [] (fun k => k) { session := s, evaluator, fieldPause, formPause, listeners }
      { session := s, evaluator, fieldPause, formPause, listeners } := by
  have hrename : s.slot? f = (s.slot? f).map (Slot.rename fun k => k) := by
    cases s.slot? f with
    | none => rfl
    | some c =>
        have hmap : ∀ x : Option Nat, x.map (fun k => k) = x := fun x => by cases x <;> rfl
        simp [Slot.rename, hmap]
  have hides : Agenda.Hides [] {} := ⟨List.nodup_nil, by simp, by simp, by simp, ⟨List.nodup_nil, by simp⟩⟩
  exact ⟨fun _ _ he => he, ⟨hrename, rfl, hmode, rfl, rfl, rfl, fun _ => rfl⟩,
    ⟨hides.agree, by simp [Agenda.roster], by simp [Agenda.roster, Agenda.rename], rfl⟩, rfl, rfl, rfl, rfl⟩

end LiveSession
end Formwork
