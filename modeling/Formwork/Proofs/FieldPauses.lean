import Formwork.Proofs.Windows

/-!
Sessions that evaluate each field on its own: a value is requested when the pause after its edit is over, unless the
field was edited again before that. Edits of other fields, evaluations and their answers change nothing about it.
-/

namespace Formwork

open TimedEdit

/-- The request to which an edit leads. -/
def TimedEdit.due (pause : Nat) (e : TimedEdit) : TimedRequest := ⟨e.time + pause, e.field, e.value⟩

/-- What was requested of the field so far, and the window that may be open for it. -/
structure Slot.OnTime (pause : Nat) (es : List TimedEdit) (rs : List TimedRequest) (g : Agenda) (a : Slot) : Prop where
  window : ∃ fired, g.Awaits pause (.job (.fieldTimer a.field.id)) (es.filter fun e => e.field = a.field.id) fired
    a.timer ∧ (rs.filter fun r => r.field = a.field.id) = fired.map (due pause)
  value : ∀ e, (es.filter fun e => e.field = a.field.id).getLast? = some e → a.value = e.value

theorem Slot.OnTime.frame {pause : Nat} {es es' : List TimedEdit} {rs rs' : List TimedRequest} {g g' : Agenda}
    {a b : Slot} (h : a.OnTime pause es rs g)
    (hsame : b.field = a.field ∧ b.timer = a.timer ∧ b.value = a.value)
    (hes : (es'.filter fun e => e.field = a.field.id) = es.filter fun e => e.field = a.field.id)
    (hrs : (rs'.filter fun r => r.field = a.field.id) = rs.filter fun r => r.field = a.field.id)
    (hs : ∀ k, a.timer = some k → g.Spares k g') (hn : g.now ≤ g'.now) : b.OnTime pause es' rs' g' := by
  obtain ⟨hfield, htimer, hvalue⟩ := hsame
  obtain ⟨fired, hw, hr⟩ := h.window
  refine ⟨⟨fired, ?_, ?_⟩, ?_⟩
  · rw [hfield, htimer, hes]
    exact hw.frame hs hn
  · rw [hfield, hrs, hr]
  · rw [hfield, hvalue, hes]
    exact h.value

namespace LiveSession

variable {l m n : LiveSession} {pause k : Nat} {es : List TimedEdit} {rs : List TimedRequest} {a c : Slot} {t : Task}
  {s : TaskStage}

/-- All fields are on time. -/
structure Punctual (pause : Nat) (es : List TimedEdit) (rs : List TimedRequest) (m : LiveSession) : Prop where
  slots : ∀ a ∈ m.session.slots, a.OnTime pause es rs m.agenda
  edits : ∀ e ∈ es, e.field ∈ m.session.ids
  requests : ∀ r ∈ rs, r.field ∈ m.session.ids

/-- The task for which a field has its window. -/
theorem Punctual.timer (h : m.Punctual pause es rs) (hc : c ∈ m.session.slots) (hk : c.timer = some k) :
    ∃ s, m.agenda.task? k = some { id := k, work := .job (.fieldTimer c.field.id), stage := s } ∧ s ≠ .done := by
  obtain ⟨fired, hw, -⟩ := (h.slots c hc).window
  rw [hk] at hw
  exact hw.task

/-- The timer of a field is no task of another one. -/
theorem Driven.timer_apart (h : l.Driven m) (hp : m.Punctual pause es rs) (hc : c ∈ m.session.slots)
    (ha : a ∈ m.session.slots) (hne : c.field.id ≠ a.field.id) (hk : c.timer = some k) :
    a.timer ≠ some k ∧ a.inflight ≠ some k := by
  obtain ⟨s, hs, hd⟩ := hp.timer hc hk
  obtain ⟨hmem, -⟩ := Agenda.task?_mem hs
  constructor
  · intro ht
    exact hne (Job.fieldTimer.inj (h.follows.timer_job hmem rfl hd ha ht))
  · intro hi
    obtain ⟨token, v, hj⟩ := h.follows.inflight_job hmem rfl hd ha hi
    cases hj

/-- What happens concerns one field, and leaves the timers of the others alone. -/
theorem Punctual.put {es' : List TimedEdit} {rs' : List TimedRequest} {b : Slot} (hp : m.Punctual pause es rs)
    (ha : a ∈ m.session.slots) (hslots : n.session.slots = (m.session.putSlot b).slots) (hfield : b.field = a.field)
    (hb : b.OnTime pause es' rs' n.agenda)
    (hes : ∃ xs, es' = es ++ xs ∧ ∀ x ∈ xs, x.field = a.field.id)
    (hrs : ∃ xs, rs' = rs ++ xs ∧ ∀ x ∈ xs, x.field = a.field.id)
    (hs : ∀ c ∈ m.session.slots, c.field.id ≠ a.field.id → ∀ k, c.timer = some k → m.agenda.Spares k n.agenda)
    (hn : m.now ≤ n.now) : n.Punctual pause es' rs' := by
  have hids : n.session.ids = m.session.ids := by
    rw [← Session.ids_putSlot m.session b, Session.ids, hslots]
    rfl
  have hid : a.field.id ∈ m.session.ids := List.mem_map_of_mem ha
  obtain ⟨xs, rfl, hx⟩ := hes
  obtain ⟨ys, rfl, hy⟩ := hrs
  refine ⟨fun c hc => ?_, fun e he => ?_, fun r hr => ?_⟩
  · rw [hslots] at hc
    rcases Session.mem_putSlot hc with rfl | ⟨hc, hne⟩
    · exact hb
    · rw [hfield] at hne
      refine (hp.slots c hc).frame ⟨rfl, rfl, rfl⟩ ?_ ?_ (hs c hc hne) hn
      · have hnone : (xs.filter fun e => e.field = c.field.id) = [] :=
          List.filter_eq_nil_iff.mpr fun x hm => by simpa [hx x hm] using Ne.symm hne
        rw [List.filter_append, hnone, List.append_nil]
      · have hnone : (ys.filter fun r => r.field = c.field.id) = [] :=
          List.filter_eq_nil_iff.mpr fun y hm => by simpa [hy y hm] using Ne.symm hne
        rw [List.filter_append, hnone, List.append_nil]
  · rw [hids]
    rcases List.mem_append.mp he with he | he
    · exact hp.edits e he
    · exact hx e he ▸ hid
  · rw [hids]
    rcases List.mem_append.mp hr with hr | hr
    · exact hp.requests r hr
    · exact hy r hr ▸ hid

/-- The slots stay as they are, and so do the windows. -/
theorem Punctual.keep (hp : m.Punctual pause es rs) (hslots : n.session.slots = m.session.slots)
    (hw : ∀ c ∈ m.session.slots, ∀ fired,
      m.agenda.Awaits pause (.job (.fieldTimer c.field.id)) (es.filter fun e => e.field = c.field.id) fired c.timer →
        n.agenda.Awaits pause (.job (.fieldTimer c.field.id)) (es.filter fun e => e.field = c.field.id) fired c.timer) :
    n.Punctual pause es rs := by
  have hids : n.session.ids = m.session.ids := by rw [Session.ids, Session.ids, hslots]
  refine ⟨fun c hc => ?_, hids ▸ hp.edits, hids ▸ hp.requests⟩
  rw [hslots] at hc
  obtain ⟨fired, haw, hr⟩ := (hp.slots c hc).window
  exact ⟨⟨fired, hw c hc fired haw, hr⟩, (hp.slots c hc).value⟩

/-! ## Edits -/

theorem Punctual.edit (hp : m.Punctual pause es rs) (h : l.Driven m) (hmode : l.session.mode = .field)
    (hadv : l.session.schema.advisoryEnabled) (hpos : 0 < pause) {id : String} {value : Value} {state : FieldState}
    (he : (m.edit id value).2 = .ok state)
    (hapart : ∀ e ∈ es, e.field = id → m.now ≠ e.time + pause) :
    (m.edit id value).1.Punctual pause (es ++ [⟨m.now, id, value⟩]) (rs ++ m.requestsUntil (m.edit id value).1) := by
  obtain ⟨a, o, ha, ho, hedited⟩ := Session.edit_taken (s := m.session) he
  obtain rfl := Session.slot?_id ha
  have hmem := Session.slot?_mem ha
  have hcarried := h.calm.edit_carried a.field.id value
  rw [h.edit_requests, List.append_nil]
  have hnow := hcarried.now
  -- only the tasks of this field are cancelled
  have spared : (∀ k, .cancel k ∈ (m.session.edit a.field.id value).1.2 → a.timer = some k ∨ a.inflight = some k) →
      ∀ c ∈ m.session.slots, c.field.id ≠ a.field.id → ∀ k, c.timer = some k →
        m.agenda.Spares k (m.edit a.field.id value).1.agenda := by
    intro hcancels c hc hne k hk
    obtain ⟨s, hs, -⟩ := hp.timer hc hk
    obtain ⟨htimer, hinflight⟩ := h.timer_apart hp hc hmem hne hk
    rw [hcarried.agenda]
    refine Agenda.Spares.heeds h.plain (Option.isSome_iff_exists.mpr ⟨_, hs⟩) fun hcancel => ?_
    exact (hcancels k hcancel).elim htimer hinflight
  obtain ⟨fired, hw, hfired⟩ := (hp.slots a hmem).window
  have hnext := hw.replaced (x := ⟨m.now, a.field.id, value⟩) hpos rfl fun e hm _ => by
    obtain ⟨hm, hf⟩ := List.mem_filter.mp hm
    exact hapart e hm (by simpa using hf)
  have hes : ((es ++ [(⟨m.now, a.field.id, value⟩ : TimedEdit)]).filter fun e => e.field = a.field.id) =
      (es.filter fun e => e.field = a.field.id) ++ [⟨m.now, a.field.id, value⟩] := by
    simp
  have hlast : ∀ e, ((es ++ [(⟨m.now, a.field.id, value⟩ : TimedEdit)]).filter fun e => e.field = a.field.id).getLast? =
      some e → value = e.value := by
    intro e hlast
    rw [hes, List.getLast?_concat, Option.some.injEq] at hlast
    rw [← hlast]
  have hadd : ∃ xs, es ++ [(⟨m.now, a.field.id, value⟩ : TimedEdit)] = es ++ xs ∧ ∀ x ∈ xs, x.field = a.field.id :=
    ⟨_, rfl, by simp⟩
  generalize (m.session.edit a.field.id value).1 = r at *
  cases hedited with
  | broken e hv => cases hv.symm.trans ho
  | unadvised _ _ _ hoff =>
      rw [h.alike.advisoryEnabled, hadv] at hoff
      cases hoff
  | pausedTogether _ _ _ _ hform =>
      rw [h.alike.mode, hmode] at hform
      cases hform
  | cleared o' ho' hb =>
      refine hp.put (b := a.cleared value o') hmem (by rw [hcarried.session]) rfl ⟨⟨fired, ?_, hfired⟩, hlast⟩ hadd
        ⟨[], (List.append_nil _).symm, by simp⟩ (spared ?_) hnow.ge
      · rw [if_pos hb, List.append_nil] at hnext
        exact hes ▸ .still hnext fun e he => (hw.past e he).trans hnow.ge
      · simp [Session.cancelOf]
  | pausedAlone o' ho' hb hon hm =>
      refine hp.put (b := a.paused value o' (some m.session.nextTask)) hmem (by rw [hcarried.session]) rfl
        ⟨⟨fired, ?_, hfired⟩, hlast⟩ hadd ⟨[], (List.append_nil _).symm, by simp⟩ (spared ?_) hnow.ge
      · rw [if_neg (by simp [hb])] at hnext
        have hticks := h.starts_pause hcarried a.timer.toList (.fieldTimer a.field.id) _ rfl (fun k hk =>
          Session.mem_tasks.mpr (.inr ⟨a, hmem, .inl (by simpa using hk)⟩)) pause
        exact hes ▸ .waiting List.getLast?_concat hnext (fun e he => (hw.past e he).trans hnow.ge) hticks
      · simpa [Session.cancelOf] using fun k hk => .inl hk

/-! ## Turns -/

section

variable {r : Stepped} {pause? : Option Pause} (hp : m.Punctual pause es rs) (h : l.Driven m)
  (ht : m.Turned t r pause? n)

include hp h ht

/-- It was the turn of a task that is no timer, and the slots stay as they are. -/
theorem Punctual.idle_turn (hr : r = (m.session, [])) (hn : ∀ c ∈ m.session.slots, c.timer ≠ some t.id) :
    n.Punctual pause es (rs ++ m.requestsUntil n) := by
  subst hr
  have hrequests : m.requestsUntil n = [] := ht.requests h
  rw [hrequests, List.append_nil]
  refine hp.keep (congrArg Session.slots ht.session) fun c hc fired hw => hw.frame (fun k hk => ?_) ht.now.ge
  obtain ⟨s, hfound, -⟩ := hp.timer hc hk
  refine ht.spares h ?_ (Option.isSome_iff_exists.mpr ⟨_, hfound⟩) (by simp)
  exact fun he => hn c hc (he ▸ hk)

/-- The pause after an edit begins. -/
theorem Punctual.begin_turn (hr : r = (m.session, [])) (hpause : pause? = some (.time pause)) (hpos : 0 < pause)
    (hfresh : t.stage = .fresh) : n.Punctual pause es (rs ++ m.requestsUntil n) := by
  subst hr hpause
  have hrequests : m.requestsUntil n = [] := ht.requests h
  rw [hrequests, List.append_nil]
  refine hp.keep (congrArg Session.slots ht.session) fun c hc fired hw => ?_
  by_cases hk : c.timer = some t.id
  · rw [hk] at hw ⊢
    obtain ⟨s, hfound, -⟩ := hw.task
    obtain ⟨rest, -, hcarried⟩ := ht.carried
    rw [hcarried.agenda]
    refine hw.sleeps hpos ?_ rfl rfl
    rw [Option.some.inj (ht.task.symm.trans hfound)] at hfresh
    rw [hfound, show s = .fresh from hfresh]
  · refine hw.frame (fun k hk' => ?_) ht.now.ge
    obtain ⟨s, hfound, -⟩ := hp.timer hc hk'
    refine ht.spares h ?_ (Option.isSome_iff_exists.mpr ⟨_, hfound⟩) (by simp)
    exact fun he => hk (he ▸ hk')

/-- The pause after an edit is over. -/
theorem Punctual.fire_turn (ha : a ∈ m.session.slots) (hk : a.timer = some t.id)
    (hr : r = m.session.fieldTimerFires a.field.id) (hawake : t.stage = .awake) :
    n.Punctual pause es (rs ++ m.requestsUntil n) := by
  have hfind := h.follows.slot?_of_mem ha
  rw [Session.fieldTimerFires_some hfind, Session.dispatch_untimed hfind] at hr
  have hrequests : m.requestsUntil n = [⟨m.now, a.field.id, a.value⟩] := by
    have hone : Effect.requests r.2 = [(a.field.id, a.value)] := by
      cases hc : m.session.cancelStale <;> simp [hr, hc, Effect.requests, Work.request?]
    rw [ht.requests h, hone]
    rfl
  obtain ⟨fired, hw, hfired⟩ := (hp.slots a ha).window
  rw [hk] at hw
  obtain ⟨e, hlast, hnow, hl, hpast⟩ := hw.fires fun s hs => by
    rw [ht.task, Option.some.injEq] at hs
    rw [← hawake, hs]
  have hfield : e.field = a.field.id := by
    simpa using (List.mem_filter.mp (List.mem_of_getLast? hlast)).2
  have hdue : (⟨m.now, a.field.id, a.value⟩ : TimedRequest) = e.due pause := by
    rw [TimedEdit.due, ← hnow, hfield, (hp.slots a ha).value e hlast]
    rfl
  rw [hrequests]
  refine hp.put (b := ({ a with timer := none } : Slot).requested m.session.nextTask) ha (by rw [ht.session, hr]) rfl
    ⟨⟨fired ++ [e], ?_, ?_⟩, (hp.slots a ha).value⟩ ⟨[], (List.append_nil _).symm, by simp⟩
    ⟨_, rfl, by simp⟩ (fun c hc hne k hk' => ?_) ht.now.ge
  · exact .still hl fun x hx => (hpast x hx).trans ht.now.ge
  · rw [List.filter_append, List.map_append, hdue, ← hfired]
    congr 1
    exact List.filter_eq_self.mpr fun r hr => by
      rw [List.mem_singleton.mp hr]
      exact decide_eq_true hfield
  · obtain ⟨s, hs, -⟩ := hp.timer hc hk'
    obtain ⟨htimer, hinflight⟩ := h.timer_apart hp hc ha hne hk'
    refine ht.spares h (fun he => htimer (he ▸ hk)) (Option.isSome_iff_exists.mpr ⟨_, hs⟩) ?_
    rw [hr]
    cases hc : m.session.cancelStale <;> simp [Session.cancelOf, hinflight]

/-- It was the turn of an evaluation, which has come to an end. -/
theorem Punctual.settle_turn {id : String} {token : Nat} {requested : Value} {ending : Session.Ending}
    (hr : r = m.session.settle t.id id token requested ending) (hn : ∀ c ∈ m.session.slots, c.timer ≠ some t.id) :
    n.Punctual pause es (rs ++ m.requestsUntil n) := by
  cases ha : m.session.slot? id with
  | none => exact hp.idle_turn h ht (hr.trans (Session.settle_none ha ..)) hn
  | some a =>
      have hmem := Session.slot?_mem ha
      obtain ⟨shows, hshows⟩ := m.session.settle_shows t.id id token requested ending
      have hrequests : m.requestsUntil n = [] := by
        rw [ht.requests h, hr, hshows, Effect.requests_shows]
        rfl
      obtain ⟨b, hput, hsame⟩ := Session.settle_slot ha t.id token requested ending
      have hslots : n.session.slots = (m.session.putSlot b).slots := by rw [ht.session, hr, hput]
      have hspares : ∀ c ∈ m.session.slots, ∀ k, c.timer = some k → m.agenda.Spares k n.agenda := by
        intro c hc k hk
        obtain ⟨s, hs, -⟩ := hp.timer hc hk
        refine ht.spares h (fun he => hn c hc (he ▸ hk)) (Option.isSome_iff_exists.mpr ⟨_, hs⟩) ?_
        simp [hr, hshows]
      rw [hrequests, List.append_nil]
      exact hp.put hmem hslots hsame.1 ((hp.slots a hmem).frame hsame rfl rfl (hspares a hmem) ht.now.ge)
        ⟨[], (List.append_nil _).symm, by simp⟩ ⟨[], (List.append_nil _).symm, by simp⟩
        (fun c hc _ => hspares c hc) ht.now.ge

end

theorem Punctual.turn (hp : m.Punctual pause es rs) (h : l.Driven m) (hmode : l.session.mode = .field)
    (hpause : l.fieldPause = .time pause) (hpos : 0 < pause) (ht : m.turn? = some n) :
    n.Punctual pause es (rs ++ m.requestsUntil n) := by
  obtain ⟨t, hmem, j, hj, ⟨field, hfield⟩, ht⟩ := h.turned_alone (h.alike.mode.trans hmode) ht
  have hlive : t.stage ≠ .done := by rcases ht.ready with hs | hs <;> simp [hs]
  -- what is no timer, or is cancelled, is the timer of no field
  have hother : (∀ id, j = .fieldTimer id → t.cancelled) → ∀ c ∈ m.session.slots, c.timer ≠ some t.id := by
    intro hno c hc hk
    obtain ⟨s, hfound, -⟩ := hp.timer hc hk
    have hcancel := hno _ (h.follows.timer_job hmem hj hlive hc hk)
    rw [Option.some.inj (ht.task.symm.trans hfound)] at hcancel
    cases hcancel
  cases j with
  | formTimer => cases hfield
  | evaluation id token requested =>
      have hno := hother (by simp)
      simp only [turnOf] at ht
      split at ht
      · split at ht
        · exact hp.idle_turn h ht rfl hno
        · split at ht
          · exact hp.settle_turn h ht rfl hno
          · exact hp.idle_turn h ht rfl hno
      · exact hp.settle_turn h ht rfl hno
  | fieldTimer id =>
      cases hcancel : t.cancelled with
      | true =>
          simp only [turnOf, hcancel, if_true] at ht
          exact hp.idle_turn h ht rfl (hother fun _ _ => hcancel)
      | false =>
          rcases ht.ready with hs | hs
          · simp only [turnOf, hcancel, hs, if_true, Bool.false_eq_true, if_false] at ht
            exact hp.begin_turn h ht rfl (by rw [h.fieldPause, hpause]) hpos hs
          · simp only [turnOf, hcancel, hs, reduceCtorEq, Bool.false_eq_true, if_false] at ht
            cases ha : m.session.slot? id with
            | none =>
                refine hp.idle_turn h ht (by rw [Session.fieldTimerFires, ha]) fun c hc hk => ?_
                obtain rfl : id = c.field.id := by
                  simpa using h.follows.timer_job hmem hj hlive hc hk
                rw [h.follows.slot?_of_mem hc] at ha
                cases ha
            | some a =>
                obtain rfl := Session.slot?_id ha
                have ha := Session.slot?_mem ha
                exact hp.fire_turn h ht ha (h.follows.ticking hmem hj hlive hcancel ha) rfl hs

/-! ## Runs -/

theorem Punctual.onward (hp : m.Punctual pause es rs) (h : l.Driven m) (hmode : l.session.mode = .field)
    (hpause : l.fieldPause = .time pause) (hpos : 0 < pause) (hn : m.Onward n) :
    n.Punctual pause es (rs ++ m.requestsUntil n) := by
  rcases h.onward_cases hn with ht | ⟨hsession, hrequests, -, hw⟩
  · exact hp.turn h hmode hpause hpos ht
  · rw [hrequests, List.append_nil]
    exact hp.keep (congrArg Session.slots hsession) fun c hc fired => hw

theorem Played.punctual (hm : l.Played es rs m) (h : l.Driven l) (hp : l.Punctual pause [] []) (hmode : l.session.mode = .field)
    (hadv : l.session.schema.advisoryEnabled) (hpause : l.fieldPause = .time pause) (hpos : 0 < pause)
    (hapart : es.Pairwise fun e x => e.field = x.field → x.time ≠ e.time + pause) : m.Punctual pause es rs := by
  induction hm with
  | start => exact hp
  | edit hm id value he ih =>
      obtain ⟨hbefore, -, hlast⟩ := List.pairwise_append.mp hapart
      exact (ih hbefore).edit (hm.driven h) hmode hadv hpos he fun e he hf => hlast e he _ (List.mem_singleton_self _) hf
  | onward hm hn ih => exact (ih hapart).onward (hm.driven h) hmode hpause hpos hn

theorem Punctual.opened {s : Session} (hs : s.Opened) (hl : l.session = s) (pause : Nat) : l.Punctual pause [] [] := by
  obtain ⟨schema, -, hf⟩ := hs.fresh
  refine ⟨fun a ha => ⟨⟨[], ?_, rfl⟩, by simp⟩, by simp, by simp⟩
  rw [(hf.slots a (hl ▸ ha)).timer]
  exact .start ..

end LiveSession

/-- What is requested of a field, when each is evaluated on its own: the values that no other edit of the field followed
before the pause was over, at the end of the pause, and nothing else. There is no more to come when no turn is left, and
time passes to any limit. -/
theorem field_requests {s : Session} (hs : s.Opened) (hmode : s.mode = .field) (hadv : s.schema.advisoryEnabled)
    (evaluator : Evaluator) {pause : Nat} (hpos : 0 < pause) (formPause : Pause) {listeners : List Listener}
    (hl : ∀ x ∈ listeners, ∀ state, x.respond state = []) {es : List TimedEdit} {rs : List TimedRequest} {m : LiveSession}
    (hm : LiveSession.Played { session := s, evaluator, fieldPause := .time pause, formPause, listeners } es rs m)
    (hapart : es.Pairwise fun e x => e.field = x.field → x.time ≠ e.time + pause) :
    (m.turn? = none → ∀ id, (rs.filter fun r => r.field = id) =
      ((lasting pause (es.filter fun e => e.field = id)).filter fun e => e.time + pause ≤ m.now).map (due pause)) ∧
    ∀ limit, ∃ enough n rs', (∀ fuel, enough ≤ fuel → m.runUntil limit fuel = n) ∧
      LiveSession.Played { session := s, evaluator, fieldPause := .time pause, formPause, listeners } es (rs ++ rs') n ∧
        n.turn? = none ∧ limit ≤ n.now := by
  have hdriven := LiveSession.Driven.opened hs evaluator (.time pause) formPause hl
  refine ⟨fun ht id => ?_, hm.goes_on hdriven⟩
  have hp := hm.punctual hdriven (.opened hs rfl pause) hmode hadv rfl hpos hapart
  by_cases hid : id ∈ m.session.ids
  · obtain ⟨a, ha⟩ := Session.slot?_isSome_iff.mpr hid
    obtain rfl := Session.slot?_id ha
    obtain ⟨fired, hw, hfired⟩ := (hp.slots a (Session.slot?_mem ha)).window
    rw [hfired, ← hw.ended (LiveSession.turn?_eq_none.mp ht)]
    rfl
  · have hes : (es.filter fun e => e.field = id) = [] :=
      List.filter_eq_nil_iff.mpr fun e he hf => hid (of_decide_eq_true hf ▸ hp.edits e he)
    have hrs : (rs.filter fun r => r.field = id) = [] :=
      List.filter_eq_nil_iff.mpr fun r hr hf => hid (of_decide_eq_true hf ▸ hp.requests r hr)
    rw [hes, hrs]
    rfl

namespace Sample

/-- A name is entered, and completed before the pause is over. -/
def completing : LiveSession := ((naming true).edit "name" (.text "Bo")).1.runUntil 200000 20

def completed : LiveSession := (completing.edit "name" (.text "Bob")).1.runUntil 2000000 20

theorem completed_played : ∃ rs, (naming true).Played
    [⟨0, "name", .text "Bo"⟩, ⟨200000, "name", .text "Bob"⟩] rs completed := by
  have hfirst := LiveSession.Played.start.edit (l := naming true) "name" (.text "Bo") rfl
  obtain ⟨rs, hwait⟩ := hfirst.runUntil 200000 20
  have hnow : completing.now = 200000 := by decide +kernel
  have htaken : (completing.edit "name" (.text "Bob")).2.toOption.isSome := by decide +kernel
  cases hstate : (completing.edit "name" (.text "Bob")).2 with
  | error e => simp [hstate, Except.toOption] at htaken
  | ok state =>
      obtain ⟨rs', hover⟩ := (hwait.edit "name" (.text "Bob") hstate).runUntil 2000000 20
      exact ⟨_, hnow ▸ hover⟩

end Sample

theorem field_requests_completed : ∃ rs, (Sample.naming true).Played
    [⟨0, "name", .text "Bo"⟩, ⟨200000, "name", .text "Bob"⟩] rs Sample.completed ∧
      (rs.filter fun r => r.field = "name") = [⟨500000, "name", .text "Bob"⟩] := by
  obtain ⟨rs, hm⟩ := Sample.completed_played
  have hopened : Session.Opened (Sample.naming true).session := Sample.profile_opened
  have hrequests := (field_requests hopened rfl rfl _ (by decide) _ (by simp) hm (by decide)).1
    (by decide +kernel)
  have hnow : Sample.completed.now = 2000000 := by decide +kernel
  refine ⟨rs, hm, (hrequests "name").trans ?_⟩
  rw [hnow]
  rfl

end Formwork
