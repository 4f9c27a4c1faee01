import Formwork.Proofs.Isolation

/-!
Scripts of edits, and what listeners and evaluators see of one field when a session plays them: it rests on the edits of
that field alone.
-/

namespace Formwork

/-- At each of some times, edits that are made one right after the other. -/
abbrev Script := List (Nat × List (String × Value))

namespace Script

/-- The entries come in order, and not after a time. -/
def Timely (horizon : Nat) (script : Script) : Prop := (script.map (·.1) ++ [horizon]).Pairwise (· ≤ ·)

/-- The edits of one field. -/
def on (f : String) (script : Script) : Script :=
  (script.map fun e => (e.1, e.2.filter fun x => x.1 = f)).filter fun e => !e.2.isEmpty

theorem on_cons_of_none {f : String} {time : Nat} {edits : List (String × Value)} (script : Script)
    (h : edits.filter (fun x => x.1 = f) = []) : on f ((time, edits) :: script) = on f script := by
  rw [on, List.map_cons, List.filter_cons_of_neg (by simp [h])]
  rfl

theorem on_cons_of_some {f : String} {time : Nat} {edits : List (String × Value)} (script : Script)
    (h : edits.filter (fun x => x.1 = f) ≠ []) :
    on f ((time, edits) :: script) = (time, edits.filter fun x => x.1 = f) :: on f script := by
  rw [on, List.map_cons, List.filter_cons_of_pos (by simpa using h)]
  rfl

theorem time_of_mem_on {f : String} {script : Script} {e : Nat × List (String × Value)} (h : e ∈ script.on f) :
    e.1 ∈ script.map (·.1) := by
  obtain ⟨x, hx, rfl⟩ := List.mem_map.mp (List.mem_filter.mp h).1
  exact List.mem_map.mpr ⟨x, hx, rfl⟩

end Script

namespace LiveSession

variable {f : String} {hidden : List Nat} {ρ : Nat → Nat} {l m n n' o o' : LiveSession} {limit time horizon : Nat}
  {rs rs' : List TimedRequest} {script : Script}

/-- Edits, whether or not those before succeed. -/
def editEach (edits : List (String × Value)) (l : LiveSession) : LiveSession :=
  edits.foldl (fun l e => (l.edit e.1 e.2).1) l

/-- Everything happens that is due by a time, and these evaluations are requested meanwhile. -/
inductive Elapses (limit : Nat) : LiveSession → List TimedRequest → LiveSession → Prop
  | stop {l : LiveSession} (h : l.tick? limit = none) : Elapses limit l [] (l.clockTo limit)
  | tick {l m n : LiveSession} {rs : List TimedRequest} (h : l.tick? limit = some m) (hm : Elapses limit m rs n) :
      Elapses limit l (l.requestsUntil m ++ rs) n

/-- The edits of a script are made at their times, and all else happens by itself until the horizon. -/
inductive Performs (horizon : Nat) : Script → LiveSession → List TimedRequest → LiveSession → Prop
  | last {l n : LiveSession} {rs : List TimedRequest} (h : Elapses horizon l rs n) : Performs horizon [] l rs n
  | entry {l m n : LiveSession} {rs rs' : List TimedRequest} {time : Nat} {edits : List (String × Value)}
      {script : Script} (h : Elapses time l rs m) (hm : Performs horizon script (m.editEach edits) rs' n) :
      Performs horizon ((time, edits) :: script) l (rs ++ m.requestsUntil (m.editEach edits) ++ rs') n

/-! ## Time -/

theorem Elapses.unique (h : Elapses limit l rs n) (h' : Elapses limit l rs' n') : rs = rs' ∧ n = n' := by
  induction h generalizing rs' n' with
  | stop hs =>
      cases h' with
      | stop => exact ⟨rfl, rfl⟩
      | tick ht => cases hs.symm.trans ht
  | tick ht _ ih =>
      cases h' with
      | stop hs => cases hs.symm.trans ht
      | tick ht' h' =>
          obtain rfl := Option.some.inj (ht.symm.trans ht')
          obtain ⟨rfl, rfl⟩ := ih h'
          exact ⟨rfl, rfl⟩

theorem Passes.elapses (h : Passes limit l n) : ∃ rs, Elapses limit l rs n := by
  induction h with
  | stop hs => exact ⟨[], .stop hs⟩
  | tick ht _ ih =>
      obtain ⟨rs, hrs⟩ := ih
      exact ⟨_, .tick ht hrs⟩

theorem Elapses.driven (h : Elapses limit l rs n) (hl : o.Driven l) : o.Driven n := by
  induction h with
  | stop hs => exact hl.onward (.stop hs)
  | tick ht _ ih => exact ih (hl.onward (.tick ht))

/-- What happens by a time happens by later ones. -/
theorem tick?_mono (h : l.tick? time = some m) (ht : time ≤ limit) : l.tick? limit = some m := by
  unfold tick? at h ⊢
  cases hturn : l.turn? with
  | some p =>
      rw [hturn] at h
      exact h
  | none =>
      rw [hturn] at h
      obtain ⟨a, ha, rfl⟩ := Option.map_eq_some_iff.mp h
      exact Option.map_eq_some_iff.mpr ⟨a, Agenda.advance?_later ha (decide_eq_true ht), rfl⟩

theorem advance?_clock (h : ∀ x ∈ l.agenda.alarms, time ≤ x.due) (limit : Option Nat) :
    (l.clockTo time).advance? limit = l.advance? limit := by
  have hsoonest : Agenda.soonest { l.agenda with now := max l.agenda.now time } = l.agenda.soonest := rfl
  have hagenda : Agenda.advance? { l.agenda with now := max l.agenda.now time } limit = l.agenda.advance? limit := by
    cases hs : l.agenda.soonest with
    | nil => simp only [Agenda.advance?, hsoonest, hs]
    | cons first rest =>
        have hmem : first ∈ l.agenda.alarms := l.agenda.soonest_perm.mem_iff.mp (hs ▸ List.mem_cons_self ..)
        simp only [Agenda.advance?, hsoonest, hs, max_assoc, max_eq_right (h first hmem)]
  exact congrArg (Option.map _) hagenda

theorem tick?_of_turn (h : l.turn? = some m) : l.tick? limit = some m := by
  rw [tick?, h]

theorem tick?_of_alarms (ht : l.turn? = none) : l.tick? limit = l.advance? (some limit) := by
  rw [tick?, ht]

/-- It makes no difference that the clock stopped at a time at which nothing was due. -/
theorem Elapses.of_clockTo {d : Nat} (ht : l.turn? = none) (ha : l.advance? (some d) = none) (hd : d ≤ limit)
    (h : Elapses limit (l.clockTo d) rs n) : Elapses limit l rs n := by
  have hturn : (l.clockTo d).turn? = none := turn?_clockTo ht
  have hlater : ∀ x ∈ l.agenda.alarms, d < x.due := by
    rw [advance?, Option.map_eq_none_iff, Agenda.advance?_eq_none] at ha
    intro x hx
    obtain ⟨i, hi, hlt⟩ := ha x hx
    cases hi
    exact hlt
  have hsame : l.tick? limit = (l.clockTo d).tick? limit := by
    rw [tick?_of_alarms hturn, tick?_of_alarms ht, advance?_clock fun x hx => Nat.le_of_lt (hlater x hx)]
  generalize hm : l.clockTo d = m at h
  cases h with
  | stop hs =>
      subst hm
      have hclock : (l.clockTo d).clockTo limit = l.clockTo limit := by
        simp only [clockTo, onAgenda, max_assoc, max_eq_right hd]
      rw [hclock]
      exact .stop (hsame.trans hs)
  | tick htick hm' =>
      subst hm
      exact .tick (hsame.trans htick) hm'

theorem Elapses.trans (h : Elapses time l rs m) (ht : time ≤ limit) (h' : Elapses limit m rs' n) :
    Elapses limit l (rs ++ rs') n := by
  induction h with
  | stop hs =>
      obtain ⟨hturn, ha⟩ := tick?_eq_none.mp hs
      exact h'.of_clockTo hturn ha ht
  | tick htick _ ih =>
      rw [List.append_assoc]
      exact .tick (tick?_mono htick ht) (ih h')

/-- The second session goes on to one that is what `n` is about the field, and these evaluations are requested. -/
def Pursues (f : String) (limit : Nat) (o m n : LiveSession) (rs : List TimedRequest) : Prop :=
  ∃ hidden ρ m', Isolated f hidden ρ n m' ∧ o.Driven m' ∧
    ∀ rs' p, Elapses limit m' rs' p → Elapses limit m (rs ++ rs') p

theorem Isolated.turn (h : Isolated f hidden ρ l m) (hl : o.Driven l) (hm : o'.Driven m) (ht : l.turn? = some n) :
    Pursues f limit o' m n ((l.requestsUntil n).filter fun x => x.field = f) := by
  obtain ⟨t, hmem, j, hj, ⟨id, hid⟩, hturned⟩ := hl.turned_alone h.session.alone ht
  have hrequests := requests_of_about (f := f) (l.turnOf_about t hid).starts l.now
  rw [← hturned.requests hl] at hrequests
  rw [hrequests]
  by_cases hf : id = f
  · subst hf
    obtain ⟨m', hm', hnext, hsame⟩ := h.turn_own hl hm hmem hj hid hturned
    refine ⟨hidden, ρ, m', hnext, hm.onward (.turn hm'), fun rs p hp => ?_⟩
    rw [if_pos rfl, ← hsame]
    exact .tick (tick?_of_turn hm') hp
  · have halike := ((Onward.turn ht).same hl.calm hl.not_close).alike
    obtain ⟨hidden', ρ', hnext⟩ := h.turn_foreign hl hm hmem hj hid hf hturned halike
    rw [if_neg hf]
    exact ⟨hidden', ρ', m, hnext, hm, fun rs p hp => hp⟩

theorem Isolated.alarms (h : Isolated f hidden ρ l m) (hm : o.Driven m) (ht : l.turn? = none)
    (ha : l.advance? (some limit) = some n) :
    Pursues f limit o m n ((l.requestsUntil n).filter fun x => x.field = f) := by
  obtain ⟨a, hadv, rfl⟩ := Option.map_eq_some_iff.mp ha
  have ht' := h.turn?_none hm ht
  have hrequests : l.requestsUntil { l with agenda := a } = [] := requestsUntil_same (Agenda.roster_advance? hadv)
  obtain ⟨x, hx, rfl, hfirst, hlimit⟩ := Agenda.advance?_some hadv
  have hd : x.due ≤ limit := of_decide_eq_true hlimit
  rw [hrequests]
  by_cases hshown : ∃ y ∈ l.agenda.shownAlarms hidden, y.1 = x.due
  · obtain ⟨hadvance, hnext⟩ := h.alarms_own hm hfirst hd hshown
    have htick := (tick?_of_alarms ht').trans hadvance
    have hnone : m.requestsUntil { m with agenda := m.agenda.passTo x.due } = [] :=
      requestsUntil_same (Agenda.roster_passTo ..)
    refine ⟨hidden, ρ, _, hnext, hm.onward (.tick htick), fun rs p hp => ?_⟩
    have hrun := Elapses.tick htick hp
    rw [hnone] at hrun
    exact hrun
  · obtain ⟨hadvance, hnext⟩ := h.alarms_foreign hm hfirst fun y hy he => hshown ⟨y, hy, he⟩
    exact ⟨hidden, ρ, _, hnext, hm.onward (.clock x.due ht' hadvance), fun rs p hp => hp.of_clockTo ht' hadvance hd⟩

theorem Isolated.tick (h : Isolated f hidden ρ l m) (hl : o.Driven l) (hm : o'.Driven m) (ht : l.tick? limit = some n) :
    Pursues f limit o' m n ((l.requestsUntil n).filter fun x => x.field = f) := by
  cases hturn : l.turn? with
  | some q =>
      obtain rfl := Option.some.inj ((tick?_of_turn hturn).symm.trans ht)
      exact h.turn hl hm hturn
  | none => exact h.alarms hm hturn ((tick?_of_alarms hturn).symm.trans ht)

theorem Elapses.isolated (hp : Elapses limit l rs n) (h : Isolated f hidden ρ l m) (hl : o.Driven l)
    (hm : o'.Driven m) : ∃ hidden' ρ' n', Elapses limit m (rs.filter fun x => x.field = f) n' ∧
      Isolated f hidden' ρ' n n' := by
  induction hp generalizing hidden ρ m with
  | stop hs =>
      obtain ⟨hs', hnext⟩ := h.stops hm hs
      exact ⟨hidden, ρ, _, .stop hs', hnext⟩
  | tick ht _ ih =>
      obtain ⟨hidden', ρ', m', hnext, hm', hrun⟩ := h.tick hl hm ht
      obtain ⟨hidden'', ρ'', n', hp', hlast⟩ := ih hnext (hl.onward (.tick ht)) hm'
      refine ⟨hidden'', ρ'', n', ?_, hlast⟩
      rw [List.filter_append]
      exact hrun _ _ hp'

/-! ## Edits -/

theorem Driven.editEach (h : o.Driven l) (edits : List (String × Value)) : o.Driven (l.editEach edits) := by
  induction edits generalizing l with
  | nil => exact h
  | cons e edits ih => exact ih (h.edit e.1 e.2)

/-- Edits request nothing at once. -/
theorem Driven.editEach_requests (h : o.Driven l) (edits : List (String × Value)) :
    l.requestsUntil (l.editEach edits) = [] := by
  have key : (l.editEach edits).agenda.requests = l.agenda.requests := by
    induction edits generalizing l with
    | nil => rfl
    | cons e edits ih => exact (ih (h.edit e.1 e.2)).trans (h.edit_agenda_requests e.1 e.2)
  rw [requestsUntil, key, List.drop_length]
  rfl

theorem Isolated.editEach (h : Isolated f hidden ρ l m) (hl : o.Driven l) (hm : o'.Driven m)
    (edits : List (String × Value)) :
    ∃ hidden' ρ', Isolated f hidden' ρ' (l.editEach edits) (m.editEach (edits.filter fun e => e.1 = f)) := by
  induction edits generalizing hidden ρ l m with
  | nil => exact ⟨hidden, ρ, h⟩
  | cons e edits ih =>
      by_cases he : e.1 = f
      · subst he
        rw [List.filter_cons_of_pos (by simp)]
        exact ih (h.edit_own hl hm e.2) (hl.edit e.1 e.2) (hm.edit e.1 e.2)
      · obtain ⟨hidden', ρ', hnext⟩ := h.edit_foreign hl hm he e.2
        rw [List.filter_cons_of_neg (by simpa using he)]
        exact ih hnext (hl.edit e.1 e.2) hm

/-! ## Scripts -/

theorem Performs.unique (h : Performs horizon script l rs n) (h' : Performs horizon script l rs' n') :
    rs = rs' ∧ n = n' := by
  induction h generalizing rs' n' with
  | last hp =>
      cases h' with
      | last hp' => exact hp.unique hp'
  | entry hp _ ih =>
      cases h' with
      | entry hp' hq' =>
          obtain ⟨rfl, rfl⟩ := hp.unique hp'
          obtain ⟨rfl, rfl⟩ := ih hq'
          exact ⟨rfl, rfl⟩

theorem Driven.performs (h : o.Driven l) (horizon : Nat) (script : Script) :
    ∃ rs n, Performs horizon script l rs n := by
  induction script generalizing l with
  | nil =>
      obtain ⟨n, hn⟩ := h.calm.passes h.follows horizon
      obtain ⟨rs, hrs⟩ := hn.elapses
      exact ⟨rs, n, .last hrs⟩
  | cons e script ih =>
      obtain ⟨m, hm⟩ := h.calm.passes h.follows e.1
      obtain ⟨rs, hrs⟩ := hm.elapses
      obtain ⟨rs', n, hn⟩ := ih ((hrs.driven h).editEach e.2)
      exact ⟨_, n, .entry hrs hn⟩

/-- A script may be begun later, if nothing of it is missed. -/
theorem Performs.after (hp : Performs horizon script m rs' n) (h : Elapses time l rs m) (ht : ∀ e ∈ script, time ≤ e.1)
    (hh : time ≤ horizon) : Performs horizon script l (rs ++ rs') n := by
  cases hp with
  | last hp => exact .last (h.trans hh hp)
  | entry hp hq =>
      rw [← List.append_assoc, ← List.append_assoc]
      exact .entry (h.trans (ht _ (List.mem_cons_self ..)) hp) hq

theorem Performs.isolated (hp : Performs horizon script l rs n) (ht : script.Timely horizon)
    (h : Isolated f hidden ρ l m) (hl : o.Driven l) (hm : o'.Driven m) : ∃ hidden' ρ' n',
      Performs horizon (script.on f) m (rs.filter fun x => x.field = f) n' ∧ Isolated f hidden' ρ' n n' := by
  induction hp generalizing hidden ρ m with
  | last hp =>
      obtain ⟨hidden', ρ', n', hp', hlast⟩ := hp.isolated h hl hm
      exact ⟨hidden', ρ', n', .last hp', hlast⟩
  | @entry l l' n rs rs' time edits script hp _ ih =>
      obtain ⟨hlater, ht⟩ := List.pairwise_cons.mp ht
      obtain ⟨hidden₁, ρ₁, m', hp', h'⟩ := hp.isolated h hl hm
      have hl' := hp.driven hl
      have hm' := hp'.driven hm
      obtain ⟨hidden₂, ρ₂, h''⟩ := h'.editEach hl' hm' edits
      obtain ⟨hidden₃, ρ₃, n', hq, hlast⟩ := ih ht h'' (hl'.editEach edits) (hm'.editEach _)
      refine ⟨hidden₃, ρ₃, n', ?_, hlast⟩
      rw [hl'.editEach_requests, List.append_nil, List.filter_append]
      by_cases hown : edits.filter (fun e => e.1 = f) = []
      · -- the second session goes on from where it was
        rw [hown] at hq
        rw [Script.on_cons_of_none script hown]
        exact hq.after hp' (fun e he => hlater _ (List.mem_append_left _ (Script.time_of_mem_on he)))
          (hlater _ (List.mem_append_right _ (List.mem_singleton_self _)))
      · have hentry := Performs.entry hp' hq
        rw [hm'.editEach_requests, List.append_nil] at hentry
        rw [Script.on_cons_of_some script hown]
        exact hentry

end LiveSession

namespace Sample

/-- Beside a name, an age is entered at the same time, and again when the pauses are over; a field that there is not is
edited as well. -/
def disturbed : Script :=
  [(0, [("age", .text "old"), ("name", .text "Bo")]), (300000, [("nickname", .null), ("age", .text "young")])]

/-- The name is entered and nothing else. -/
def undisturbed : Script := [(0, [("name", .text "Bo")])]

/-- What comes of the name alone. -/
def named : LiveSession :=
  (((naming true).runUntil 0 20).editEach [("name", .text "Bo")]).runUntil 2000000 20

theorem named_performed : ∃ rs, (naming true).Performs 2000000 undisturbed rs named := by
  have hfirst : LiveSession.Passes 0 (naming true) ((naming true).runUntil 0 20) :=
    LiveSession.passes_of_restsAt 20 (by decide +kernel)
  have hrest : LiveSession.Passes 2000000 (((naming true).runUntil 0 20).editEach [("name", .text "Bo")]) named :=
    LiveSession.passes_of_restsAt 20 (by decide +kernel)
  obtain ⟨rs, hrs⟩ := hfirst.elapses
  obtain ⟨rs', hrs'⟩ := hrest.elapses
  exact ⟨_, .entry hrs (.last hrs')⟩

end Sample

end Formwork
