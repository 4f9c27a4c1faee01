import Formwork.Proofs.FormTimer
import Formwork.Proofs.Windows

/-!
Sessions that evaluate all fields together: the values of all fields are requested when the pause after an edit is over,
unless another value was entered before that.
-/

namespace Formwork

open TimedEdit

namespace TimedEdit

/-- The value of a field at a time: that of the last edit before it, or the one with which the field was opened. -/
def valueBefore (es : List TimedEdit) (time : Nat) (field : String) (opened : Value) : Value :=
  (((es.filter fun e => e.field = field ∧ e.time < time).getLast?).map (·.value)).getD opened

variable {es : List TimedEdit} {e x : TimedEdit} {time : Nat} {field : String} {opened : Value}

theorem valueBefore_append (hx : x.time < time) : valueBefore (es ++ [x]) time field opened =
    if field = x.field then x.value else valueBefore es time field opened := by
  by_cases hf : field = x.field
  · simp [valueBefore, hf, hx]
  · simp [valueBefore, hf, Ne.symm hf]

/-- What is entered later makes no difference. -/
theorem valueBefore_append_later (hx : time ≤ x.time) :
    valueBefore (es ++ [x]) time field opened = valueBefore es time field opened := by
  simp [valueBefore, Nat.not_lt.mpr hx]

end TimedEdit

namespace Session

variable {s t u : Session} {a b : Slot} {id : String} {es : List TimedEdit} {x : TimedEdit} {time : Nat}

/-- The requests of all fields at a time: each field with a value then, in order. -/
def batch (s : Session) (es : List TimedEdit) (time : Nat) : List TimedRequest :=
  (s.values.map fun v => ⟨time, v.1, valueBefore es time v.1 v.2⟩).filter fun r => !r.value.isBlank

theorem batch_append_later (s : Session) (hx : time ≤ x.time) : s.batch (es ++ [x]) time = s.batch es time := by
  simp only [batch, valueBefore_append_later hx]

theorem values_putSlot (s : Session) (b : Slot) :
    (s.putSlot b).values = s.values.map fun v => (v.1, if v.1 = b.field.id then b.value else v.2) := by
  rw [values, values, putSlot, List.map_map, List.map_map]
  refine List.map_congr_left fun t _ => ?_
  by_cases h : t.field.id = b.field.id <;> simp [h]

/-- The value of a field that has one. -/
def valued? (s : Session) (id : String) : Option (String × Value) :=
  (s.values.find? fun v => v.1 = id).filter fun v => !v.2.isBlank

theorem valued?_eq (ha : s.slot? id = some a) :
    s.valued? id = if a.value.isBlank then none else some (a.field.id, a.value) := by
  have hfind : (s.values.find? fun v => v.1 = id) = some (a.field.id, a.value) := by
    rw [values, List.find?_map]
    exact congrArg (Option.map _) ha
  rw [valued?, hfind]
  cases hb : a.value.isBlank <;> simp [Option.filter, hb]

theorem valued?_none (ha : s.slot? id = none) : s.valued? id = none := by
  have hfind : (s.values.find? fun v => v.1 = id) = none := by
    rw [values, List.find?_map]
    exact congrArg (Option.map _) ha
  rw [valued?, hfind]
  rfl

theorem filterMap_valued? (hd : s.ids.Nodup) : s.ids.filterMap s.valued? = s.values.filter fun v => !v.2.isBlank := by
  have hids : s.ids = s.values.map (·.1) := by
    rw [ids, values, List.map_map]
    rfl
  have hfind : ∀ v ∈ s.values, (s.values.find? fun u => u.1 = v.1) = some v := by
    intro v hv
    have hsome : (s.values.find? fun u => u.1 = v.1).isSome := List.find?_isSome.mpr ⟨v, hv, by simp⟩
    obtain ⟨u, hu⟩ := Option.isSome_iff_exists.mp hsome
    have hmem := List.mem_of_find?_eq_some hu
    have hid : u.1 = v.1 := by simpa using List.find?_some hu
    rw [hu, List.inj_on_of_nodup_map (hids ▸ hd) hmem hv hid]
  rw [hids, List.filterMap_map, ← List.filterMap_eq_filter]
  refine List.filterMap_congr fun v hv => ?_
  rw [Function.comp_apply, valued?, hfind v hv]
  rfl

/-- Nothing is entered, and no pause begins or ends. -/
structure Steady (s t : Session) : Prop where
  values : t.values = s.values
  formTimer : t.formTimer = s.formTimer
  untimed : (∀ c ∈ s.slots, c.timer = none) → ∀ c ∈ t.slots, c.timer = none

theorem Steady.refl (s : Session) : s.Steady s := ⟨rfl, rfl, fun h => h⟩

theorem Steady.trans (h : s.Steady t) (h' : t.Steady u) : s.Steady u :=
  ⟨h'.values.trans h.values, h'.formTimer.trans h.formTimer, fun hs => h'.untimed (h.untimed hs)⟩

theorem Steady.put (hd : s.ids.Nodup) (ha : s.slot? id = some a) (hb : b.field = a.field) (hv : b.value = a.value)
    (ht : b.timer = a.timer) (hslots : t.slots = (s.putSlot b).slots) (hf : t.formTimer = s.formTimer) :
    s.Steady t := by
  refine ⟨?_, hf, fun hs c hc => ?_⟩
  · have hvalues : t.values = (s.putSlot b).values := by rw [Session.values, Session.values, hslots]
    rw [hvalues, values_putSlot]
    refine (List.map_congr_left fun v hm => ?_).trans (List.map_id _)
    obtain ⟨c, hc, rfl⟩ := List.mem_map.mp hm
    split
    · next he =>
        rw [List.inj_on_of_nodup_map hd hc (slot?_mem ha) (he.trans (congrArg (·.id) hb)), hv]
        rfl
    · rfl
  · rw [hslots] at hc
    rcases mem_putSlot hc with rfl | ⟨hc, -⟩
    · exact ht.trans (hs a (slot?_mem ha))
    · exact hs c hc

theorem settle_steady (hd : s.ids.Nodup) (task : Nat) (id : String) (token : Nat) (requested : Value) (ending : Ending) :
    s.Steady (s.settle task id token requested ending).1 := by
  cases ha : s.slot? id with
  | none => exact settle_none ha .. ▸ .refl s
  | some a =>
      obtain ⟨b, hput, hfield, htimer, hvalue⟩ := settle_slot ha task token requested ending
      exact .put hd ha hfield hvalue htimer (by rw [hput]) (s.settle_formTimer ..)

/-- A field that has a value is dispatched. -/
theorem dispatchIfValued_steady (hd : s.ids.Nodup) (id : String) : s.Steady (s.dispatchIfValued id).1 ∧
    Effect.requests (s.dispatchIfValued id).2 = (s.valued? id).toList := by
  rcases s.dispatchIfValued_cases id with ⟨h, hb⟩ | ⟨a, ha, hb, h⟩
  · rw [h]
    refine ⟨.refl s, ?_⟩
    cases ha : s.slot? id with
    | none =>
        rw [valued?_none ha]
        rfl
    | some a =>
        rw [valued?_eq ha, if_pos (hb a ha)]
        rfl
  · rw [h, dispatch_some ha, valued?_eq ha]
    refine ⟨.put hd ha (b := a.requested s.nextTask) rfl rfl rfl rfl rfl, ?_⟩
    cases hc : s.cancelStale <;> simp [hb, Effect.requests, Work.request?]

end Session

namespace LiveSession

variable {l m n : LiveSession} {pause : Nat} {es : List TimedEdit} {rs : List TimedRequest} {s : Session} {t : Task}
  {ts : List World.Transition}

/-- The walk over the fields, when the pause is over. -/
theorem Calm.dispatches {task : Nat} {work : Work} (ids : List String) {m : LiveSession} (hc : m.Calm)
    (h : m.Follows ts (some (task, work)) (ids.map .valued)) (hd : m.session.ids.Nodup) :
    let n := ids.foldl (fun m id => m.apply (Session.dispatchIfValued id)) m
    m.session.Steady n.session ∧ n.now = m.now ∧
      n.agenda.requests = m.agenda.requests ++ ids.filterMap m.session.valued? := by
  induction ids generalizing m with
  | nil => exact ⟨.refl _, rfl, (List.append_nil _).symm⟩
  | cons id ids ih =>
      have hone := hc.apply_carried (Session.dispatchIfValued id)
      obtain ⟨hsteady, hrequests⟩ := Session.dispatchIfValued_steady hd id
      have hroster := h.orderly.roster_heeds (fun k hk => h.tracked hk) (Visit.step_modest (.valued id) m.session)
      have hnext : (m.apply (Session.dispatchIfValued id)).agenda.requests =
          m.agenda.requests ++ (m.session.valued? id).toList := by
        rw [hone.agenda, Agenda.requests]
        exact (congrArg _ hroster).trans (List.filterMap_append.trans (congrArg _ hrequests))
      rw [← hone.session] at hsteady
      have hids : (m.apply (Session.dispatchIfValued id)).session.ids = m.session.ids := by
        rw [hone.session]
        exact ((Visit.valued id).step_alike m.session).ids
      obtain ⟨hrest, hnow', hlast⟩ := ih (fun x hx => hc x (hone.listeners ▸ hx)) (visit_follows h) (hids ▸ hd)
      refine ⟨hsteady.trans hrest, hnow'.trans hone.now, hlast.trans ?_⟩
      have hvalued : (m.apply (Session.dispatchIfValued id)).session.valued? = m.session.valued? := by
        funext id
        rw [Session.valued?, Session.valued?, hsteady.values]
      rw [hnext, hvalued, List.append_assoc]
      cases hv : m.session.valued? id <;> simp [hv]

/-- What was requested so far, and the window that may be open. -/
structure Together (pause : Nat) (s : Session) (es : List TimedEdit) (rs : List TimedRequest) (m : LiveSession) :
    Prop where
  window : ∃ fired, m.agenda.Awaits pause (.job .formTimer) (es.filter fun e => !e.value.isBlank) fired
    m.session.formTimer ∧ rs = fired.flatMap fun e => s.batch es (e.time + pause)
  early : m.session.formTimer.isSome → ∀ e, (es.filter fun e => !e.value.isBlank).getLast? = some e →
    ∀ x ∈ es, x.time < e.time + pause
  values : ∀ time, (∀ e ∈ es, e.time < time) →
    m.session.values = s.values.map fun v => (v.1, valueBefore es time v.1 v.2)
  past : ∀ e ∈ es, e.time ≤ m.now
  untimed : ∀ c ∈ m.session.slots, c.timer = none

/-- Nothing happens to the window. -/
theorem Together.keep (hp : m.Together pause s es rs) (hs : m.session.Steady n.session) (hn : m.now ≤ n.now)
    (hw : ∀ fired, m.agenda.Awaits pause (.job .formTimer) (es.filter fun e => !e.value.isBlank) fired
      m.session.formTimer → n.agenda.Awaits pause (.job .formTimer) (es.filter fun e => !e.value.isBlank) fired
        m.session.formTimer) : n.Together pause s es rs := by
  obtain ⟨fired, haw, hr⟩ := hp.window
  refine ⟨⟨fired, ?_, hr⟩, ?_, fun time ht => ?_, fun e he => (hp.past e he).trans hn, hs.untimed hp.untimed⟩
  · rw [hs.formTimer]
    exact hw fired haw
  · rw [hs.formTimer]
    exact hp.early
  · rw [hs.values]
    exact hp.values time ht

/-! ## Edits -/

/-- A value of a field is taken over. -/
theorem Together.put (hp : m.Together pause s es rs) {x : TimedEdit} (hx : x.time = m.now) {b : Slot}
    (hid : b.field.id = x.field) (hvalue : b.value = x.value) (htimer : b.timer = none)
    (hslots : n.session.slots = (m.session.putSlot b).slots) (hnow : n.now = m.now)
    (hw : ∀ fired, m.agenda.Awaits pause (.job .formTimer) (es.filter fun e => !e.value.isBlank) fired
      m.session.formTimer → n.agenda.Awaits pause (.job .formTimer) ((es ++ [x]).filter fun e => !e.value.isBlank) fired
        n.session.formTimer)
    (hearly : n.session.formTimer.isSome → ∀ e, ((es ++ [x]).filter fun e => !e.value.isBlank).getLast? = some e →
      ∀ y ∈ es ++ [x], y.time < e.time + pause) : n.Together pause s (es ++ [x]) rs := by
  obtain ⟨fired, haw, hfired⟩ := hp.window
  refine ⟨⟨fired, hw fired haw, ?_⟩, hearly, fun time ht => ?_, fun e he => ?_, fun c hc => ?_⟩
  · -- what was requested before stays as it was
    rw [hfired, List.flatMap_congr fun e he => (s.batch_append_later (x := x) (hx ▸ haw.past e he)).symm]
  · have hput : n.session.values = (m.session.putSlot b).values := by rw [Session.values, Session.values, hslots]
    rw [hput, Session.values_putSlot, hp.values time fun e he => ht e (List.mem_append_left _ he), List.map_map]
    refine List.map_congr_left fun v _ => ?_
    rw [Function.comp_apply, valueBefore_append (ht _ (List.mem_append_right _ (List.mem_singleton_self _))), hid, hvalue]
  · rw [hnow]
    rcases List.mem_append.mp he with he | he
    · exact hp.past e he
    · rw [List.mem_singleton.mp he, hx]
  · rw [hslots] at hc
    rcases Session.mem_putSlot hc with rfl | ⟨hc, -⟩
    · exact htimer
    · exact hp.untimed c hc

/-- A field is cleared, and the window stays as it is. -/
theorem Together.cleared (hp : m.Together pause s es rs) (h : l.Driven m) {x : TimedEdit} (hx : x.time = m.now)
    (hb : x.value.isBlank) {a : Slot} (ha : a ∈ m.session.slots) (hid : a.field.id = x.field) {o : Outcome}
    (hapart : ∀ e ∈ es, e.value.isBlank = false → m.now ≠ e.time + pause)
    (hc : m.Carried (m.session.putSlot (a.cleared x.value o), Session.cancelOf a.timer ++ Session.cancelOf a.inflight ++
      [.show (a.cleared x.value o).state]) (fun a => a) n) : n.Together pause s (es ++ [x]) rs := by
  have hsame : ((es ++ [x]).filter fun e => !e.value.isBlank) = es.filter fun e => !e.value.isBlank := by simp [hb]
  have hform : n.session.formTimer = m.session.formTimer := by rw [hc.session]; rfl
  refine hp.put (b := a.cleared x.value o) hx hid rfl rfl (by rw [hc.session]) hc.now (fun fired hw => ?_)
    fun hsome e hlast y hy => ?_
  · rw [hsame, hform]
    refine hw.frame (fun k hk => ?_) hc.now.ge
    rw [hk] at hw
    obtain ⟨st, hfound, hlive⟩ := hw.task
    rw [hc.agenda]
    refine .heeds h.plain (Option.isSome_iff_exists.mpr ⟨_, hfound⟩) ?_
    have hinflight : a.inflight ≠ some k := fun hi => by
      obtain ⟨token, v, hj⟩ := h.follows.inflight_job (Agenda.task?_mem hfound).1 rfl hlive ha hi
      cases hj
    simp [Session.cancelOf, hp.untimed a ha, hinflight]
  · rw [hform] at hsome
    rw [hsame] at hlast
    rcases List.mem_append.mp hy with hy | hy
    · exact hp.early hsome e hlast y hy
    · obtain ⟨k, hk⟩ := Option.isSome_iff_exists.mp hsome
      obtain ⟨fired, hw, -⟩ := hp.window
      rw [hk] at hw
      obtain ⟨z, hz, hvalue, hle⟩ := hw.now_le
      obtain rfl := Option.some.inj (hz.symm.trans hlast)
      have hne := hapart z (List.mem_filter.mp (List.mem_of_getLast? hlast)).1 hvalue
      rw [List.mem_singleton.mp hy, hx]
      exact Nat.lt_of_le_of_ne hle hne

/-- A value is entered, and a new window is opened. -/
theorem Together.restarted (hp : m.Together pause s es rs) (h : l.Driven m) (hpos : 0 < pause) {x : TimedEdit}
    (hx : x.time = m.now) (hb : x.value.isBlank = false) {a : Slot} (ha : a ∈ m.session.slots)
    (hid : a.field.id = x.field) {o : Outcome}
    (hapart : ∀ e ∈ es, e.value.isBlank = false → m.now ≠ e.time + pause)
    (hc : m.Carried ({ m.session.putSlot (a.paused x.value o none) with
        formTimer := some m.session.nextTask, nextTask := m.session.nextTask + 1 },
      Session.cancelOf a.timer ++ (Session.cancelOf m.session.formTimer ++ [.start m.session.nextTask .formTimer,
        .show (a.paused x.value o none).state])) (fun a => a) n) : n.Together pause s (es ++ [x]) rs := by
  have hsame : ((es ++ [x]).filter fun e => !e.value.isBlank) = (es.filter fun e => !e.value.isBlank) ++ [x] := by
    simp [hb]
  have hform : n.session.formTimer = some m.session.nextTask := by rw [hc.session]
  refine hp.put (b := a.paused x.value o none) hx hid rfl rfl (by rw [hc.session]) hc.now (fun fired hw => ?_)
    fun _ e hlast y hy => ?_
  · have hnext := hw.replaced hpos hx fun e hm hv => hx ▸ hapart e (List.mem_filter.mp hm).1 hv
    rw [if_neg (by simp [hb])] at hnext
    have hticks := h.starts_pause hc (a.timer.toList ++ m.session.formTimer.toList) .formTimer
      (a.paused x.value o none).state (by simp [Session.cancelOf]) (fun k hk => Session.mem_tasks.mpr (.inl (by
        simpa [hp.untimed a ha] using hk))) pause
    rw [← hx] at hticks
    rw [hsame, hform]
    exact .waiting List.getLast?_concat hnext (fun e he => (hw.past e he).trans hc.now.ge) hticks
  · rw [hsame, List.getLast?_concat, Option.some.injEq] at hlast
    have hle : y.time ≤ x.time := by
      rcases List.mem_append.mp hy with hy | hy
      · exact hx ▸ hp.past y hy
      · rw [List.mem_singleton.mp hy]
    rw [← hlast]
    exact Nat.lt_of_le_of_lt hle (Nat.lt_add_of_pos_right hpos)

theorem Together.edit (hp : m.Together pause s es rs) (h : l.Driven m) (hmode : l.session.mode = .form)
    (hadv : l.session.schema.advisoryEnabled) (hpos : 0 < pause) {id : String} {value : Value} {state : FieldState}
    (he : (m.edit id value).2 = .ok state)
    (hapart : ∀ e ∈ es, e.value.isBlank = false → m.now ≠ e.time + pause) :
    (m.edit id value).1.Together pause s (es ++ [⟨m.now, id, value⟩]) (rs ++ m.requestsUntil (m.edit id value).1) := by
  obtain ⟨a, o, ha, ho, hedited⟩ := Session.edit_taken (s := m.session) he
  obtain rfl := Session.slot?_id ha
  have hmem := Session.slot?_mem ha
  have hcarried := h.calm.edit_carried a.field.id value
  rw [h.edit_requests, List.append_nil]
  generalize (m.session.edit a.field.id value).1 = r at *
  cases hedited with
  | broken e hv => cases hv.symm.trans ho
  | unadvised _ _ _ hoff =>
      rw [h.alike.advisoryEnabled, hadv] at hoff
      cases hoff
  | pausedAlone _ _ _ _ hfield =>
      rw [h.alike.mode, hmode] at hfield
      cases hfield
  | cleared o' ho' hb => exact hp.cleared h rfl hb hmem rfl hapart hcarried
  | pausedTogether o' ho' hb hon hm => exact hp.restarted h hpos rfl hb hmem rfl hapart hcarried

/-! ## Turns -/

/-- A pause of the form that is not cancelled is the one for which there is a window. -/
theorem Driven.formTimer (h : l.Driven m) (hmem : t ∈ m.agenda.tasks) (hj : t.work = .job .formTimer)
    (hlive : t.stage ≠ .done) (hcancel : t.cancelled = false) : m.session.formTimer = some t.id := by
  obtain ⟨us, w, hw, -, hm⟩ := h.follows
  rw [← hm.session]
  exact hw.single _ (hm.errands ▸ Agenda.mem_errands_of_job hmem hj hlive) rfl hcancel

/-- The pause is over, and the walk over the fields begins. -/
theorem Follows.fires (hf : m.Follows ts none []) {rest : List Turn} (hturns : m.agenda.turns = .task t.id :: rest)
    (hmem : t ∈ m.agenda.tasks) (hj : t.work = .job .formTimer) (hcancel : t.cancelled = false)
    (hawake : t.stage = .awake) :
    ((m.onAgenda fun a => { a with turns := rest }).apply Session.formTimerFires).Follows ts (some (t.id, t.work))
      (m.session.ids.map .valued) := by
  obtain ⟨us, w, hw, hv, hm⟩ := hf
  have herrand := Agenda.mem_errands_of_job hmem hj (by simp [hawake])
  exact formTimerFires_follows (hm.take_turn hmem hturns) hw hv (hm.errands ▸ herrand) rfl rfl (by simp [hawake]) hcancel

section

variable {r : Stepped} {pause? : Option Pause} (hp : m.Together pause s es rs) (h : l.Driven m)
  (ht : m.Turned t r pause? n)

include hp h ht

/-- It was the turn of a task for which there is no window. -/
theorem Together.other_turn (hs : m.session.Steady r.1) (hr : Effect.requests r.2 = []) (hcancel : ∀ k, .cancel k ∉ r.2)
    (hn : m.session.formTimer ≠ some t.id) : n.Together pause s es (rs ++ m.requestsUntil n) := by
  have hrequests : m.requestsUntil n = [] := by
    rw [ht.requests h, hr]
    rfl
  rw [hrequests, List.append_nil]
  refine hp.keep (ht.session ▸ hs) ht.now.ge fun fired hw => hw.frame (fun k hk => ?_) ht.now.ge
  rw [hk] at hw
  obtain ⟨st, hfound, -⟩ := hw.task
  refine ht.spares h ?_ (Option.isSome_iff_exists.mpr ⟨_, hfound⟩) (hcancel k)
  exact fun he => hn (he ▸ hk)

/-- The pause after an edit begins. -/
theorem Together.begin_turn (hr : r = (m.session, [])) (hpause : pause? = some (.time pause)) (hpos : 0 < pause)
    (hfresh : t.stage = .fresh) (hk : m.session.formTimer = some t.id) :
    n.Together pause s es (rs ++ m.requestsUntil n) := by
  subst hr hpause
  have hrequests : m.requestsUntil n = [] := ht.requests h
  rw [hrequests, List.append_nil]
  refine hp.keep (ht.session ▸ .refl m.session) ht.now.ge fun fired hw => ?_
  rw [hk] at hw ⊢
  obtain ⟨st, hfound, -⟩ := hw.task
  obtain ⟨rest, -, hcarried⟩ := ht.carried
  rw [hcarried.agenda]
  refine hw.sleeps hpos ?_ rfl rfl
  rw [Option.some.inj (ht.task.symm.trans hfound)] at hfresh
  rw [hfound, show st = .fresh from hfresh]

end

/-- What is requested then are the values of that moment. -/
theorem Together.batch_eq (hp : m.Together pause s es rs) {e : TimedEdit}
    (hlast : (es.filter fun e => !e.value.isBlank).getLast? = some e) (hsome : m.session.formTimer.isSome) :
    s.batch es (e.time + pause) =
      (m.session.values.filter fun v => !v.2.isBlank).map fun v => ⟨e.time + pause, v.1, v.2⟩ := by
  rw [hp.values (e.time + pause) (hp.early hsome e hlast), Session.batch, List.filter_map, List.filter_map, List.map_map]
  rfl

/-- The pause after an edit is over, and all fields are dispatched. -/
theorem Together.fire_turn (hp : m.Together pause s es rs) (h : l.Driven m) {rest : List Turn}
    (hturns : m.agenda.turns = .task t.id :: rest) (hmem : t ∈ m.agenda.tasks) (hj : t.work = .job .formTimer)
    (hcancel : t.cancelled = false) (hawake : t.stage = .awake) (htask : m.agenda.task? t.id = some t)
    (hn : n = (((m.onAgenda fun a => { a with turns := rest }).apply Session.formTimerFires).applyEach
      Session.dispatchIfValued).finish t.id) : n.Together pause s es (rs ++ m.requestsUntil n) := by
  have hk := h.formTimer hmem hj (by simp [hawake]) hcancel
  obtain ⟨fired, hw, hfired⟩ := hp.window
  rw [hk] at hw
  obtain ⟨e, hlast, hnow, hl, hpast⟩ := hw.fires fun st hs => by
    rw [htask, Option.some.injEq] at hs
    rw [← hawake, hs]
  have hcalm : (m.onAgenda fun a => { a with turns := rest }).Calm := h.calm
  have hfires := hcalm.apply_carried Session.formTimerFires
  have hwalk := h.follows.fires hturns hmem hj hcancel hawake
  generalize (m.onAgenda fun a => { a with turns := rest }).apply Session.formTimerFires = q at *
  have hslots : q.session.slots = m.session.slots := by rw [hfires.session]; rfl
  have hids : q.session.ids = m.session.ids := by rw [Session.ids, Session.ids, hslots]
  have hvalues : q.session.values = m.session.values := by rw [Session.values, Session.values, hslots]
  obtain ⟨hsteady, hsame, hrequests⟩ := Calm.dispatches q.session.ids (fun x hx => hcalm x (hfires.listeners ▸ hx))
    (hids ▸ hwalk) (hids ▸ h.follows.nodup)
  have hnow' : n.now = m.now := by
    rw [hn]
    refine (Agenda.finish_now ..).trans (hsame.trans ?_)
    rw [LiveSession.now, hfires.agenda]
    rfl
  have hbatch : m.requestsUntil n = s.batch es (e.time + pause) := by
    have hnew : n.agenda.requests = m.agenda.requests ++ m.session.values.filter fun v => !v.2.isBlank := by
      have hfinish : n.agenda.roster = (q.applyEach Session.dispatchIfValued).agenda.roster := by
        rw [hn]
        exact Agenda.roster_finish ..
      rw [Agenda.requests, hfinish, ← hvalues, ← Session.filterMap_valued? (hids ▸ h.follows.nodup)]
      refine hrequests.trans ?_
      rw [hfires.agenda]
      rfl
    rw [requestsUntil_of_requests hnew, hnow', hp.batch_eq hlast (by simp [hk]), ← hnow]
    rfl
  have hsession : n.session = (q.applyEach Session.dispatchIfValued).session := by rw [hn]; rfl
  have hform : n.session.formTimer = none := by
    rw [hsession]
    refine hsteady.formTimer.trans ?_
    rw [hfires.session]
    rfl
  refine ⟨⟨fired ++ [e], ?_, ?_⟩, by simp [hform], fun time ht => ?_, fun x hx => hnow' ▸ hp.past x hx, ?_⟩
  · rw [hform]
    exact .still hl fun x hx => (hpast x hx).trans hnow'.ge
  · rw [hbatch, List.flatMap_append, ← hfired, List.flatMap_singleton]
  · rw [← hp.values time ht, ← hvalues, hsession]
    exact hsteady.values
  · rw [hsession]
    exact hsteady.untimed fun c hc => hp.untimed c (hslots ▸ hc)

theorem Together.turn (hp : m.Together pause s es rs) (h : l.Driven m) (hmode : l.session.mode = .form)
    (hpause : l.formPause = .time pause) (hpos : 0 < pause) (ht : m.turn? = some n) :
    n.Together pause s es (rs ++ m.requestsUntil n) := by
  obtain ⟨t, hmem, j, hj, ⟨hfirst, ht⟩ | ⟨rfl, hcancel, hawake, htask, rest, hturns, hn⟩⟩ := h.turned ht
  · have hlive : t.stage ≠ .done := by rcases ht.ready with hs | hs <;> simp [hs]
    -- the window is that of a pause which is not cancelled
    have hwindow : m.session.formTimer = some t.id → t.work = .job .formTimer ∧ t.cancelled = false := by
      intro hk
      obtain ⟨fired, hw, -⟩ := hp.window
      rw [hk] at hw
      obtain ⟨st, hfound, -⟩ := hw.task
      rw [Option.some.inj (ht.task.symm.trans hfound)]
      exact ⟨rfl, rfl⟩
    cases j with
    | fieldTimer id =>
        have hfield : l.session.mode = .field := by simpa [hj, Work.Suits] using h.suits.mem hmem
        rw [hmode] at hfield
        cases hfield
    | formTimer =>
        cases hcancel : t.cancelled with
        | true =>
            refine hp.other_turn h ht (.refl _) rfl (by simp [turnOf]) fun hk => ?_
            rw [(hwindow hk).2] at hcancel
            cases hcancel
        | false =>
            have hfresh : t.stage = .fresh := (hfirst rfl).resolve_left (by simp [hcancel])
            refine hp.begin_turn h ht rfl ?_ hpos hfresh (h.formTimer hmem hj hlive hcancel)
            rw [turnOf, hcancel, h.formPause, hpause]
            rfl
    | evaluation id token requested =>
        have hother : m.session.formTimer ≠ some t.id := fun hk => by
          have hwork := (hwindow hk).1
          rw [hj] at hwork
          cases hwork
        have hsettle : ∀ ending pause?, m.Turned t (m.session.settle t.id id token requested ending) pause? n →
            n.Together pause s es (rs ++ m.requestsUntil n) := by
          intro ending pause? ht
          obtain ⟨shows, hshows⟩ := m.session.settle_shows t.id id token requested ending
          refine hp.other_turn h ht (Session.settle_steady h.follows.nodup ..) ?_ (by simp [hshows]) hother
          rw [hshows, Effect.requests_shows]
        simp only [turnOf] at ht
        split at ht
        · split at ht
          · exact hp.other_turn h ht (.refl _) rfl (by simp) hother
          · split at ht
            · exact hsettle _ _ ht
            · exact hp.other_turn h ht (.refl _) rfl (by simp) hother
        · exact hsettle _ _ ht
  · exact hp.fire_turn h hturns hmem hj hcancel hawake htask hn

/-! ## Runs -/

theorem Together.onward (hp : m.Together pause s es rs) (h : l.Driven m) (hmode : l.session.mode = .form)
    (hpause : l.formPause = .time pause) (hpos : 0 < pause) (hn : m.Onward n) :
    n.Together pause s es (rs ++ m.requestsUntil n) := by
  rcases h.onward_cases hn with ht | ⟨hsession, hrequests, hnow, hw⟩
  · exact hp.turn h hmode hpause hpos ht
  · rw [hrequests, List.append_nil]
    exact hp.keep (hsession ▸ .refl m.session) hnow fun fired => hw

theorem Played.together (hm : l.Played es rs m) (h : l.Driven l) (hp : l.Together pause s [] [])
    (hmode : l.session.mode = .form) (hadv : l.session.schema.advisoryEnabled) (hpause : l.formPause = .time pause)
    (hpos : 0 < pause) (hapart : es.Pairwise fun e x => e.value.isBlank = false → x.time ≠ e.time + pause) :
    m.Together pause s es rs := by
  induction hm with
  | start => exact hp
  | edit hm id value he ih =>
      obtain ⟨hbefore, -, hlast⟩ := List.pairwise_append.mp hapart
      exact (ih hbefore).edit (hm.driven h) hmode hadv hpos he fun e he hv => hlast e he _ (List.mem_singleton_self _) hv
  | onward hm hn ih => exact (ih hapart).onward (hm.driven h) hmode hpause hpos hn

theorem Together.opened {s : Session} (hs : s.Opened) (hl : l.session = s) (pause : Nat) : l.Together pause s [] [] := by
  obtain ⟨schema, -, hf⟩ := hs.fresh
  subst hl
  refine ⟨⟨[], ?_, rfl⟩, by simp, fun time _ => (List.map_id _).symm, by simp, fun c hc => (hf.slots c hc).timer⟩
  rw [hf.formTimer]
  exact .start ..

end LiveSession

/-- What is requested when all fields are evaluated together: at the end of the pause after each edit with a value, unless
another one follows before that, the values that the fields then have, in the order of the fields. A blank edit ends no
pause, but takes its field out of what is requested. There is no more to come when no turn is left, and time passes to
any limit. -/
theorem form_requests {s : Session} (hs : s.Opened) (hmode : s.mode = .form) (hadv : s.schema.advisoryEnabled)
    (evaluator : Evaluator) (fieldPause : Pause) {pause : Nat} (hpos : 0 < pause) {listeners : List Listener}
    (hl : ∀ x ∈ listeners, ∀ state, x.respond state = []) {es : List TimedEdit} {rs : List TimedRequest} {m : LiveSession}
    (hm : LiveSession.Played { session := s, evaluator, fieldPause, formPause := .time pause, listeners } es rs m)
    (hapart : es.Pairwise fun e x => e.value.isBlank = false → x.time ≠ e.time + pause) :
    (m.turn? = none → rs = ((lasting pause (es.filter fun e => !e.value.isBlank)).filter fun e =>
      e.time + pause ≤ m.now).flatMap fun e => s.batch es (e.time + pause)) ∧
    ∀ limit, ∃ enough n rs', (∀ fuel, enough ≤ fuel → m.runUntil limit fuel = n) ∧
      LiveSession.Played { session := s, evaluator, fieldPause, formPause := .time pause, listeners } es (rs ++ rs') n ∧
        n.turn? = none ∧ limit ≤ n.now := by
  have hdriven := LiveSession.Driven.opened hs evaluator fieldPause (.time pause) hl
  refine ⟨fun ht => ?_, hm.goes_on hdriven⟩
  have hp := hm.together hdriven (.opened hs rfl pause) hmode hadv rfl hpos hapart
  obtain ⟨fired, hw, hfired⟩ := hp.window
  rw [hfired, ← hw.ended (LiveSession.turn?_eq_none.mp ht)]
  rfl

namespace Sample

/-- The age is filled in already. -/
def aged : LiveSession where
  session := ageSession
  evaluator _ _ := { pause := .turn, answer := .findings [] }

/-- A name is entered, and the age is cleared before the pause is over. -/
def cleared : LiveSession := ((aged.edit "name" (.text "Bo")).1.runUntil 400000 20 |>.edit "age" .null).1.runUntil 2000000 20

theorem cleared_played : ∃ rs, aged.Played [⟨0, "name", .text "Bo"⟩, ⟨400000, "age", .null⟩] rs cleared := by
  have hfirst := LiveSession.Played.start.edit (l := aged) "name" (.text "Bo") rfl
  obtain ⟨rs, hwait⟩ := hfirst.runUntil 400000 20
  generalize hl : (aged.edit "name" (.text "Bo")).1.runUntil 400000 20 = l at hwait
  have hnow : l.now = 400000 := hl ▸ by decide +kernel
  have htaken : (l.edit "age" .null).2.toOption.isSome := hl ▸ by decide +kernel
  cases hstate : (l.edit "age" .null).2 with
  | error e => simp [hstate, Except.toOption] at htaken
  | ok state =>
      obtain ⟨rs', hover⟩ := (hwait.edit "age" .null hstate).runUntil 2000000 20
      rw [hnow, ← hl] at hover
      exact ⟨_, hover⟩

end Sample

theorem form_requests_cleared : ∃ rs, Sample.aged.Played [⟨0, "name", .text "Bo"⟩, ⟨400000, "age", .null⟩] rs
    Sample.cleared ∧ rs = [⟨1000000, "name", .text "Bo"⟩] := by
  obtain ⟨rs, hm⟩ := Sample.cleared_played
  have hrequests := (form_requests Sample.ageSession_opened rfl rfl _ _ (by decide) (by simp) hm (by decide)).1
    (by decide +kernel)
  have hnow : Sample.cleared.now = 2000000 := by decide +kernel
  rw [hnow] at hrequests
  exact ⟨rs, hm, hrequests.trans rfl⟩

end Formwork
