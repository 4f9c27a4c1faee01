import Formwork.Proofs.StuckFields
import Formwork.Proofs.TwinRuns

/-!
Schedules of edits and flushes: whether a new request cancels the evaluation of the one before it cannot be seen,
neither by the listeners nor in the states of the fields.
-/

namespace Formwork

/-- What a caller does without waiting for it. -/
inductive Call
  | edit (field : String) (value : Value)
  | flush

/-- At each of some times, calls that are made one right after the other. -/
abbrev Schedule := List (Nat × List Call)

/-- What the listeners have been shown so far, and the states of all fields. -/
structure Snapshot where
  shown : List (Nat × String × FieldState)
  states : List FieldState

namespace LiveSession

def call (l : LiveSession) : Call → LiveSession
  | .edit id value => (l.edit id value).1
  | .flush => l.startWait .flush

def snapshot (l : LiveSession) : Snapshot := ⟨l.shown, l.session.states⟩

/-- Everything has happened that is due by a time. -/
def restsAt (l : LiveSession) (time : Nat) : Bool :=
  l.turn?.isNone && (l.advance? (some time)).isNone && time ≤ l.now

/-- Snapshots before and after every call of a schedule, if the fuel is enough to reach all of them. -/
def follow? (fuel : Nat) : Schedule → LiveSession → Option (List Snapshot)
  | [], _ => some []
  | (time, calls) :: rest, l =>
      let l := runUntil time fuel l
      if l.restsAt time then
        (follow? fuel rest (calls.foldl call l)).map fun snapshots => (calls.scanl call l).map snapshot ++ snapshots
      else none

variable {hidden : List Nat} {limit : Nat} {l m n : LiveSession}

/-! ## Fuel -/

theorem turn?_clockTo (h : l.turn? = none) : (l.clockTo limit).turn? = none :=
  turn?_eq_none.mpr (show l.agenda.turns = [] from turn?_eq_none.mp h)

theorem advance?_clockTo (h : l.advance? (some limit) = none) : (l.clockTo limit).advance? (some limit) = none := by
  have hnone := Agenda.advance?_eq_none.mp (Option.map_eq_none_iff.mp h)
  exact Option.map_eq_none_iff.mpr (Agenda.advance?_eq_none.mpr hnone)

theorem tick?_eq_none : l.tick? limit = none ↔ l.turn? = none ∧ l.advance? (some limit) = none := by
  unfold tick?
  cases l.turn? <;> simp

theorem runUntil_tick (h : l.tick? limit = some m) (fuel : Nat) :
    runUntil limit (fuel + 1) l = runUntil limit fuel m := by
  unfold tick? at h
  rw [runUntil]
  cases ht : l.turn? with
  | some p =>
      rw [ht] at h
      cases h
      rfl
  | none =>
      rw [ht] at h
      have ha : l.advance? (some limit) = some m := h
      rw [ha]

theorem runUntil_over (h : l.tick? limit = none) (fuel : Nat) : runUntil limit (fuel + 1) l = l.clockTo limit := by
  obtain ⟨ht, ha⟩ := tick?_eq_none.mp h
  rw [runUntil, ht, ha]
  rfl

/-- With enough fuel all of the time passes. -/
theorem Passes.runUntil (hp : Passes limit l n) :
    n.restsAt limit ∧ ∃ enough, ∀ fuel, enough ≤ fuel → runUntil limit fuel l = n := by
  induction hp with
  | @stop l h =>
      obtain ⟨ht, ha⟩ := tick?_eq_none.mp h
      refine ⟨?_, 1, fun fuel hf => ?_⟩
      · have hnow : limit ≤ (l.clockTo limit).now := Nat.le_max_right ..
        simp [restsAt, turn?_clockTo ht, advance?_clockTo ha, hnow]
      · obtain ⟨fuel, rfl⟩ := Nat.exists_eq_add_of_le' hf
        exact runUntil_over h fuel
  | tick h _ ih =>
      obtain ⟨hrest, enough, he⟩ := ih
      refine ⟨hrest, enough + 1, fun fuel hf => ?_⟩
      obtain ⟨fuel, rfl⟩ := Nat.exists_eq_add_of_le' (Nat.le_of_add_left_le hf)
      rw [runUntil_tick h]
      exact he fuel (by omega)

/-- A run that comes to rest had enough fuel. -/
theorem passes_of_restsAt (fuel : Nat) (h : (runUntil limit fuel l).restsAt limit) :
    Passes limit l (runUntil limit fuel l) := by
  induction fuel generalizing l with
  | zero =>
      rw [runUntil] at h ⊢
      simp only [restsAt, Bool.and_eq_true, Option.isNone_iff_eq_none, decide_eq_true_eq] at h
      have hover := Passes.stop (tick?_eq_none.mpr h.1)
      have hnow : max l.agenda.now limit = l.agenda.now := max_eq_left h.2
      have hsame : l.clockTo limit = l := by
        simp only [clockTo, onAgenda, hnow]
      rwa [hsame] at hover
  | succ fuel ih =>
      cases ht : l.tick? limit with
      | none =>
          rw [runUntil_over ht]
          exact .stop ht
      | some m =>
          rw [runUntil_tick ht] at h ⊢
          exact .tick ht (ih h)

/-! ## Calls of twins -/

theorem call_follows {ts : List World.Transition} (h : l.Follows ts none []) (c : Call) :
    (l.call c).Follows ts none [] := by
  cases c with
  | edit id value => exact edit_follows h id value
  | flush => exact startWait_follows h .flush

theorem calls_follow {ts : List World.Transition} (h : l.Follows ts none []) (calls : List Call) :
    (calls.foldl call l).Follows ts none [] := by
  induction calls generalizing l with
  | nil => exact h
  | cons c calls ih => exact ih (call_follows h c)

theorem Alike.snapshot (h : Alike hidden l m) : m.snapshot = l.snapshot := by
  unfold LiveSession.snapshot
  rw [h.shown, h.session]
  rfl

theorem Twins.calls (h : Twins hidden l m) (calls : List Call) :
    Twins hidden (calls.foldl call l) (calls.foldl call m) ∧
      (calls.scanl call m).map snapshot = (calls.scanl call l).map snapshot := by
  induction calls generalizing l m with
  | nil => exact ⟨h, by simp [h.toAlike.snapshot]⟩
  | cons c calls ih =>
      have hone : Twins hidden (l.call c) (m.call c) := by
        cases c with
        | edit id value => exact (h.edit id value).1
        | flush => exact h.startWait
      obtain ⟨hlast, hsame⟩ := ih hone
      refine ⟨hlast, ?_⟩
      rw [List.scanl_cons, List.scanl_cons, List.map_cons, List.map_cons, h.toAlike.snapshot, hsame]

/-- A schedule has the same snapshots for both twins, or comes to no end for either. -/
theorem Twins.follow? (h : Twins hidden l m) (hl : l.Follows [] none []) (hm : m.Follows [] none [])
    (schedule : Schedule) : ∃ enough outcome, ∀ fuel, enough ≤ fuel →
      l.follow? fuel schedule = outcome ∧ m.follow? fuel schedule = outcome := by
  induction schedule generalizing hidden l m with
  | nil => exact ⟨0, some [], fun _ _ => ⟨rfl, rfl⟩⟩
  | cons entry rest ih =>
      obtain ⟨time, calls⟩ := entry
      by_cases hpass : ∃ n, Passes time l n
      · obtain ⟨n, hp⟩ := hpass
        obtain ⟨p, hidden', hq, htwins⟩ := hp.twin h.toAlike h.level hl hm
        obtain ⟨hlast, hsnapshots⟩ := htwins.calls calls
        obtain ⟨hn, enough, hn'⟩ := hp.runUntil
        obtain ⟨hp', enough', hq'⟩ := hq.runUntil
        have hl' := calls_follow (hp.follows hl) calls
        have hm' := calls_follow (hq.follows hm) calls
        obtain ⟨enough'', outcome, hrest⟩ := ih hlast hl' hm'
        refine ⟨max enough (max enough' enough''),
          outcome.map fun snapshots => (calls.scanl call n).map snapshot ++ snapshots, fun fuel hf => ?_⟩
        obtain ⟨hl', hm'⟩ := hrest fuel (by omega)
        constructor
        · rw [LiveSession.follow?, hn' fuel (by omega), ← hl']
          exact if_pos hn
        · rw [LiveSession.follow?, hq' fuel (by omega), ← hm', ← hsnapshots]
          exact if_pos hp'
      · -- neither of the two comes to rest, with whatever fuel
        refine ⟨0, none, fun fuel _ => ⟨if_neg fun hrest => ?_, if_neg fun hrest => ?_⟩⟩
        · exact hpass ⟨_, passes_of_restsAt fuel hrest⟩
        · obtain ⟨n, hidden', hp, -⟩ := (passes_of_restsAt fuel hrest).twin h.symm.toAlike h.symm.level hm hl
          exact hpass ⟨n, hp⟩

/-! ## Listeners that only listen -/

theorem Passes.calm (hp : Passes limit l n) (hc : l.Calm) (h : l.Follows [] none []) : n.Calm := by
  induction hp with
  | stop => exact hc
  | @tick l m n ht _ ih =>
      refine ih (fun x hx => hc x ?_) (tick_follows h ht)
      unfold tick? at ht
      split at ht
      · next p hp => exact (hc.turn_falls (Nat.le_refl _) h (Option.some.inj ht ▸ hp)).listeners x hx
      · exact (advance_falls Nat.one_pos h ht).listeners x hx

theorem Calm.call (hc : l.Calm) (c : Call) : (l.call c).Calm := by
  cases c with
  | flush => exact hc
  | edit id value =>
      obtain ⟨cancels, job?, shows, ha⟩ := l.session.edit_modest id value
      have hcalm : (l.tended (l.session.edit id value).1.1 cancels l.session.nextTask job?).Calm := hc
      obtain ⟨sightings, he⟩ := hcalm.shows (editTo 99) shows
      have hedit : (l.edit id value).1 = carryOut (editTo 99) l (l.session.edit id value).1 := rfl
      rw [LiveSession.call, hedit, carryOut_asks (editTo 99) ha.effects, he]
      exact hcalm

theorem Calm.calls (hc : l.Calm) (calls : List Call) : (calls.foldl LiveSession.call l).Calm := by
  induction calls generalizing l with
  | nil => exact hc
  | cons c calls ih => exact ih (hc.call c)

theorem Calm.follow? (hc : l.Calm) (h : l.Follows [] none []) (schedule : Schedule) :
    ∃ enough, ∀ fuel, enough ≤ fuel → (l.follow? fuel schedule).isSome := by
  induction schedule generalizing l with
  | nil => exact ⟨0, fun _ _ => rfl⟩
  | cons entry rest ih =>
      obtain ⟨time, calls⟩ := entry
      obtain ⟨n, hp⟩ := hc.passes h time
      obtain ⟨hn, enough, hn'⟩ := hp.runUntil
      obtain ⟨enough', hrest⟩ := ih (Calm.calls (hp.calm hc h) calls) (calls_follow (hp.follows h) calls)
      refine ⟨max enough enough', fun fuel hf => ?_⟩
      simp only [LiveSession.follow?, hn' fuel (by omega), hn, if_true, Option.isSome_map]
      exact hrest fuel (by omega)

end LiveSession

/-! ## Sessions that differ in the setting -/

namespace Session

theorem prefill_heeding (s : Session) (cancelStale : Bool) (id : String) (value : Value) :
    (s.heeding cancelStale).prefill id value = (s.prefill id value).map fun t => t.heeding cancelStale := by
  have hslot : (s.heeding cancelStale).slot id = s.slot id := rfl
  have hcheck : (s.heeding cancelStale).validator = s.validator := rfl
  rw [prefill, prefill, hslot, hcheck]
  cases s.slot id with
  | error e => rfl
  | ok a => cases s.validator.validateField id value <;> rfl

theorem ofValidator_heeding (v : Validator) (mode : Mode) (setting cancelStale : Bool)
    (initial : List (String × Value)) : ofValidator v mode cancelStale initial =
      (ofValidator v mode setting initial).map fun s => s.heeding cancelStale := by
  have key : ∀ s : Session, initial.foldlM (fun (s : Session) e => s.prefill e.1 e.2) (s.heeding cancelStale) =
      (initial.foldlM (fun (s : Session) e => s.prefill e.1 e.2) s).map fun t => t.heeding cancelStale := by
    induction initial with
    | nil => exact fun _ => rfl
    | cons e es ih =>
        intro s
        rw [List.foldlM_cons, List.foldlM_cons, prefill_heeding]
        cases s.prefill e.1 e.2 with
        | error f => rfl
        | ok t => exact ih t
  exact key { validator := v, mode, cancelStale := setting, slots := v.schema.fields.map fun field => { field } }

end Session

namespace LiveSession

/-- Opened sessions that differ in the setting are twins. -/
theorem Twins.opened {s : Session} (hs : s.Opened) (cancelStale : Bool) (evaluator : Evaluator)
    (fieldPause formPause : Pause) (listeners : List Listener) :
    Twins [] { session := s, evaluator, fieldPause, formPause, listeners }
      { session := s.heeding cancelStale, evaluator, fieldPause, formPause, listeners } := by
  obtain ⟨schema, -, hf⟩ := hs.fresh
  have htasks : s.tasks = [] := by
    refine List.eq_nil_iff_forall_not_mem.mpr fun k hk => ?_
    rcases Session.mem_tasks.mp hk with hk | ⟨c, hc, hk⟩
    · rw [hf.formTimer] at hk
      cases hk
    · rw [(hf.slots c hc).timer, (hf.slots c hc).inflight] at hk
      rcases hk with hk | hk <;> cases hk
  have hscreen : s.Screened [] [] := by
    refine ⟨hs.nodup, by simp, by simp, by simp [htasks], fun c hc k hk => ?_, by simp, by simp⟩
    rw [(hf.slots c hc).inflight] at hk
    cases hk
  have hides : Agenda.Hides [] {} := ⟨List.nodup_nil, by simp, by simp, by simp, ⟨List.nodup_nil, by simp⟩⟩
  exact ⟨⟨hscreen, hscreen.heeding cancelStale, hides.agree, rfl, rfl, rfl, rfl, rfl, rfl⟩, rfl⟩

end LiveSession

namespace Sample

/-- Half of a name is evaluated for half a second, and another value at once. -/
def naming (cancelStale : Bool) : LiveSession where
  session := { profile with cancelStale }
  evaluator _ value :=
    { pause := if value.eqv (.text "Bo") then .time 500000 else .turn, answer := .findings [], recorded := true }
  listeners := [{ name := "screen" }]

theorem naming_opened (cancelStale : Bool) : (naming cancelStale).session.Opened :=
  ⟨ageSchema, profile.validator, .field, cancelStale, [], rfl, rfl⟩

/-- The name is completed while it is evaluated, and its answer comes late. -/
def correction : Schedule :=
  [(0, [.edit "name" (.text "Bo")]), (400000, [.edit "name" (.text "Bob"), .flush]), (2000000, [])]

/-- The marks that the evaluations leave. -/
def marks (cancelStale : Bool) : List (Nat × Stage) :=
  let l := LiveSession.runUntil 400000 20 ((naming cancelStale).call (.edit "name" (.text "Bo")))
  let l := LiveSession.runUntil 2000000 20 ((l.call (.edit "name" (.text "Bob"))).call .flush)
  l.sightings.filterMap fun
    | .mark m => some (m.time, m.stage)
    | .shown .. => none

end Sample

end Formwork
