import Formwork.Proofs.LiveRuns
import Formwork.Proofs.Ranks

/-!
Twins run until a time. One may stop for an alarm of a hidden task, or give a hidden task its turn, while the other one
stands still; what shows happens in both at one time. Only hidden tasks ever have turns at different times.
-/

namespace Formwork

namespace LiveSession

variable {hidden : List Nat} {limit : Nat} {l m n : LiveSession}

/-- What happens next: a turn if one is left, or else the next alarms. -/
def tick? (limit : Nat) (l : LiveSession) : Option LiveSession :=
  match l.turn? with
  | some m => some m
  | none => l.advance? (some limit)

def clockTo (limit : Nat) (l : LiveSession) : LiveSession := l.onAgenda fun a => { a with now := max a.now limit }

/-- Everything happens that is due by a time. -/
inductive Passes (limit : Nat) : LiveSession → LiveSession → Prop
  | stop {l : LiveSession} (h : l.tick? limit = none) : Passes limit l (l.clockTo limit)
  | tick {l m n : LiveSession} (h : l.tick? limit = some m) (hm : Passes limit m n) : Passes limit l n

/-- The clocks agree about everything that shows. They may differ as long as only hidden tasks have turns. -/
structure Level (hidden : List Nat) (limit : Nat) (l m : LiveSession) : Prop where
  turns : l.agenda.shownTurns hidden ≠ [] → m.now = l.now
  dues : ∀ d, d = limit ∨ (∃ x ∈ l.agenda.shownAlarms hidden, x.1 = d) → max m.now d = max l.now d

theorem Level.symm (h : Level hidden limit l m) (ha : Alike hidden l m) : Level hidden limit m l where
  turns ht := (h.turns (ha.agenda.turns ▸ ht)).symm
  dues d hd := (h.dues d (ha.agenda.alarms ▸ hd)).symm

theorem Twins.level (h : Twins hidden l m) : Level hidden limit l m :=
  ⟨fun _ => h.now, fun d _ => congrArg (max · d) h.now⟩

/-! ## What does not show -/

/-- The next turn is that of a hidden task, or the next alarms are those of hidden tasks. -/
inductive Slips (hidden : List Nat) (limit : Nat) (l : LiveSession) : LiveSession → Prop
  | turn {turn : Turn} {rest : List Turn} {m : LiveSession} (ht : l.agenda.turns = turn :: rest)
      (hs : turn.shown hidden = false) (hm : l.turn? = some m) : Slips hidden limit l m
  | alarm {m : LiveSession} (ht : l.agenda.turns = []) (hm : l.advance? (some limit) = some m)
      (hs : ∀ x ∈ l.agenda.alarms, (∀ y ∈ l.agenda.alarms, x.due ≤ y.due) →
        ∀ y ∈ l.agenda.shownAlarms hidden, y.1 ≠ x.due) : Slips hidden limit l m

theorem turn?_eq_none : l.turn? = none ↔ l.agenda.turns = [] := by
  unfold turn?
  cases l.agenda.turns <;> simp

theorem mem_shownAlarms {a : Agenda} {d : Nat} : (∃ x ∈ a.shownAlarms hidden, x.1 = d) ↔
    ∃ x ∈ a.alarms, x.task ∉ hidden ∧ x.due = d := by
  simp only [Agenda.shownAlarms, List.mem_map, List.mem_filter, a.soonest_perm.mem_iff, decide_eq_true_eq]
  constructor
  · rintro ⟨-, ⟨x, ⟨hx, hk⟩, rfl⟩, hd⟩
    exact ⟨x, hx, hk, hd⟩
  · rintro ⟨x, hx, hk, hd⟩
    exact ⟨_, ⟨x, ⟨hx, hk⟩, rfl⟩, hd⟩

theorem Slips.tick (h : m.Slips hidden limit n) : m.tick? limit = some n := by
  unfold tick?
  cases h with
  | turn ht hs hm => rw [hm]
  | alarm ht hm hs => rw [turn?_eq_none.mpr ht, hm]

theorem Slips.falls (h : m.Slips hidden limit n) (ha : Twins hidden m m) (hf : m.Follows [] none []) : m.Falls 1 n := by
  cases h with
  | turn ht hs hm => exact ha.turn_falls Nat.one_pos hf ht hs hm
  | alarm ht hm hs => exact advance_falls Nat.one_pos hf hm

/-- The other one stands still. -/
theorem Slips.alike (h : m.Slips hidden limit n) (ha : Alike hidden l m) (hl : Level hidden limit l m) :
    Alike hidden l n ∧ Level hidden limit l n := by
  have hself : Twins hidden m m := ⟨ha.symm.trans ha, rfl⟩
  cases h with
  | turn ht hs hm =>
      obtain ⟨n', hn, htwin⟩ := hself.turn_hidden ht hs
      obtain rfl := Option.some.inj (hm.symm.trans hn)
      exact ⟨ha.trans htwin.toAlike, fun hne => htwin.now.trans (hl.turns hne), fun d hd =>
        (congrArg (max · d) htwin.now).trans (hl.dues d hd)⟩
  | alarm ht hm hs =>
      obtain ⟨a, hadv, rfl⟩ := Option.map_eq_some_iff.mp hm
      have hroster := Agenda.roster_advance? hadv
      obtain ⟨x, hx, rfl, hfirst, hlimit⟩ := Agenda.advance?_some hadv
      have hagree := hself.agenda.left.passTo (hs x hx hfirst)
      refine ⟨ha.trans (hself.with_agenda hagree rfl hroster), fun hne => ?_, fun d hd => ?_⟩
      · refine absurd ?_ hne
        rw [ha.agenda.turns, Agenda.shownTurns, ht]
        rfl
      · have hnow : LiveSession.now { m with agenda := m.agenda.passTo x.due } = max m.now x.due := Agenda.passTo_now ..
        have hle : x.due ≤ d := by
          rcases hd with rfl | hd
          · simpa using hlimit
          · rw [ha.agenda.alarms] at hd
            obtain ⟨y, hy, -, rfl⟩ := mem_shownAlarms.mp hd
            exact hfirst y hy
        rw [hnow, max_assoc, max_eq_right hle]
        exact hl.dues d hd

/-! ## What shows -/

/-- Time passes to an alarm of a task that is not hidden. -/
theorem advance_shown {a : Agenda} (ht : l.agenda.turns = []) (ha : l.agenda.advance? (some limit) = some a)
    (hn : ∀ n, ¬l.Slips hidden limit n) : ∃ d, a = l.agenda.passTo d ∧ d ≤ limit ∧ (∀ x ∈ l.agenda.alarms, d ≤ x.due) ∧
      ∃ x ∈ l.agenda.shownAlarms hidden, x.1 = d := by
  obtain ⟨x, hx, rfl, hfirst, hlimit⟩ := Agenda.advance?_some ha
  refine ⟨x.due, rfl, by simpa using hlimit, hfirst, ?_⟩
  by_contra hnone
  refine hn _ (.alarm ht (congrArg (Option.map _) ha) fun z hz hfirst' y hy he => hnone ⟨y, hy, he.trans ?_⟩)
  exact Nat.le_antisymm (hfirst' x hx) (hfirst z hz)

theorem advance_isSome {a : Agenda} {d : Nat} (hd : d ≤ limit) (hx : ∃ x ∈ a.shownAlarms hidden, x.1 = d) :
    ∃ b, a.advance? (some limit) = some b := by
  obtain ⟨x, hm, -, rfl⟩ := mem_shownAlarms.mp hx
  refine Option.ne_none_iff_exists'.mp fun hnone => ?_
  obtain ⟨n, hn, hlt⟩ := Agenda.advance?_eq_none.mp hnone x hm
  obtain rfl := Option.some.inj hn
  exact Nat.lt_irrefl _ (Nat.lt_of_lt_of_le hlt hd)

theorem shown_of_not_slips (h : Twins hidden l l) {turn : Turn} {rest : List Turn} (ht : l.agenda.turns = turn :: rest)
    (hn : ∀ n, ¬l.Slips hidden limit n) : turn.shown hidden = true := by
  refine Bool.of_not_eq_false fun hs => ?_
  obtain ⟨n, hturn, -⟩ := h.turn_hidden ht hs
  exact hn n (.turn ht hs hturn)

/-- If what happens next shows in both, then it is the same. -/
theorem Alike.tick (h : Alike hidden l m) (hv : Level hidden limit l m) (hl : l.Follows [] none [])
    (hm : m.Follows [] none []) (nl : ∀ n, ¬l.Slips hidden limit n) (nm : ∀ n, ¬m.Slips hidden limit n) :
    (∃ l' m' hidden', l.tick? limit = some l' ∧ m.tick? limit = some m' ∧ Twins hidden' l' m') ∨
      l.tick? limit = none ∧ m.tick? limit = none := by
  have hself : Twins hidden l l := ⟨h.trans h.symm, rfl⟩
  have hself' : Twins hidden m m := ⟨h.symm.trans h, rfl⟩
  have hturns := h.agenda.turns
  unfold Agenda.shownTurns at hturns
  unfold tick?
  cases ht : l.agenda.turns with
  | cons turn rest =>
      have hs := shown_of_not_slips hself ht nl
      have hne : l.agenda.shownTurns hidden ≠ [] := by simp [Agenda.shownTurns, ht, hs]
      rw [ht, List.filter_cons_of_pos hs] at hturns
      cases ht' : m.agenda.turns with
      | nil =>
          rw [ht'] at hturns
          cases hturns
      | cons turn' rest' =>
          rw [ht', List.filter_cons_of_pos (shown_of_not_slips hself' ht' nm)] at hturns
          obtain ⟨rfl, -⟩ := List.cons.inj hturns
          cases turn with
          | report g => cases hs
          | task k =>
              have hk : k ∉ hidden := by simpa [Turn.shown] using hs
              have htwins : Twins hidden l m := ⟨h, hv.turns hne⟩
              obtain ⟨l', m', hidden', hturn, hturn', hnext⟩ := htwins.turn hl hm hk ht ht'
              rw [hturn, hturn']
              exact .inl ⟨l', m', hidden', rfl, rfl, hnext⟩
  | nil =>
      have ht' : m.agenda.turns = [] := by
        cases ht' : m.agenda.turns with
        | nil => rfl
        | cons turn' rest' =>
            rw [ht, ht', List.filter_cons_of_pos (shown_of_not_slips hself' ht' nm)] at hturns
            cases hturns
      rw [turn?_eq_none.mpr ht, turn?_eq_none.mpr ht']
      unfold advance?
      cases ha : l.agenda.advance? (some limit) with
      | some a =>
          obtain ⟨d, rfl, hd, hfirst, hshown⟩ := advance_shown ht ha nl
          obtain ⟨b, hb⟩ := advance_isSome hd (h.agenda.alarms ▸ hshown)
          obtain ⟨e, rfl, -, hfirst', hshown'⟩ := advance_shown ht' hb nm
          obtain ⟨x, hx, -, hxd⟩ := mem_shownAlarms.mp (h.agenda.alarms ▸ hshown)
          obtain ⟨y, hy, -, hye⟩ := mem_shownAlarms.mp (h.agenda.alarms ▸ hshown')
          obtain rfl : e = d := Nat.le_antisymm (hxd ▸ hfirst' x hx) (hye ▸ hfirst y hy)
          rw [hb]
          refine .inl ⟨_, _, hidden, rfl, rfl, h.with_agenda (h.agenda.passTo e) ?_ ?_, ?_⟩
          · exact Agenda.roster_advance? ha
          · exact Agenda.roster_advance? hb
          · exact (Agenda.passTo_now ..).trans ((hv.dues e (.inr hshown)).trans (Agenda.passTo_now ..).symm)
      | none =>
          refine .inr ⟨rfl, ?_⟩
          cases hb : m.agenda.advance? (some limit) with
          | none => rfl
          | some b =>
              obtain ⟨e, rfl, he, -, hshown⟩ := advance_shown ht' hb nm
              obtain ⟨a, ha'⟩ := advance_isSome he (h.agenda.alarms ▸ hshown)
              rw [ha] at ha'
              cases ha'

/-! ## Runs -/

theorem tick_follows {ts : List World.Transition} (h : l.Follows ts none []) (hm : l.tick? limit = some m) :
    m.Follows ts none [] := by
  unfold tick? at hm
  split at hm
  · next n hn => exact Option.some.inj hm ▸ turn_follows h hn
  · exact advance_follows h hm

theorem Passes.follows {ts : List World.Transition} (hp : Passes limit l n) (h : l.Follows ts none []) :
    n.Follows ts none [] := by
  induction hp with
  | stop => exact clock_follows h _
  | tick hm _ ih => exact ih (tick_follows h hm)

/-- One goes on with what does not show, until it would show. -/
theorem Alike.catch_up (h : Alike hidden l m) (hv : Level hidden limit l m) (hm : m.Follows [] none []) :
    ∃ n, Alike hidden l n ∧ Level hidden limit l n ∧ n.Follows [] none [] ∧ (∀ p, ¬n.Slips hidden limit p) ∧
      ∀ p, Passes limit n p → Passes limit m p := by
  induction hr : m.agenda.rank 1 using WellFoundedLT.induction generalizing m with
  | ind r ih =>
      by_cases hslip : ∃ n, m.Slips hidden limit n
      · obtain ⟨n, hs⟩ := hslip
        obtain ⟨ha, hl⟩ := hs.alike h hv
        have hself : Twins hidden m m := ⟨h.symm.trans h, rfl⟩
        have hlt := (hs.falls hself hm).rank
        obtain ⟨p, hp, hpv, hpf, hpn, hrun⟩ := ih _ (hr ▸ hlt) ha hl (tick_follows hm hs.tick) rfl
        exact ⟨p, hp, hpv, hpf, hpn, fun q hq => .tick hs.tick (hrun q hq)⟩
      · exact ⟨m, h, hv, hm, not_exists.mp hslip, fun _ hp => hp⟩

theorem Twins.clockTo (h : Alike hidden l m) (hv : Level hidden limit l m) :
    Twins hidden (l.clockTo limit) (m.clockTo limit) := by
  have hides : ∀ {a : Agenda} (now : Nat), a.Hides hidden → Agenda.Hides hidden { a with now } := fun now ha =>
    ha.congr rfl rfl ⟨ha.numbered.distinct, ha.numbered.below⟩
  have hagree : Agenda.Agree hidden { l.agenda with now := max l.now limit } { m.agenda with now := max m.now limit } :=
    ⟨hides _ h.agenda.left, hides _ h.agenda.right, h.agenda.tasks, h.agenda.turns, h.agenda.alarms⟩
  exact ⟨h.with_agenda hagree rfl rfl, hv.dues limit (.inl rfl)⟩

/-- What happens in one by a time happens in the other. -/
theorem Passes.twin (hp : Passes limit l n) (h : Alike hidden l m) (hv : Level hidden limit l m)
    (hl : l.Follows [] none []) (hm : m.Follows [] none []) : ∃ p hidden', Passes limit m p ∧ Twins hidden' n p := by
  induction hp generalizing hidden m with
  | @stop l hover =>
      obtain ⟨q, hq, hqv, hqf, hqn, hrun⟩ := h.catch_up hv hm
      have nl : ∀ p, ¬l.Slips hidden limit p := fun p hs => by
        rw [hs.tick] at hover
        cases hover
      rcases hq.tick hqv hl hqf nl hqn with ⟨l', -, -, ht, -⟩ | ⟨-, hover'⟩
      · rw [hover] at ht
        cases ht
      · exact ⟨_, hidden, hrun _ (.stop hover'), Twins.clockTo hq hqv⟩
  | @tick l l' n htick hp ih =>
      obtain ⟨q, hq, hqv, hqf, hqn, hrun⟩ := h.catch_up hv hm
      have hl' := tick_follows hl htick
      by_cases hslip : ∃ p, l.Slips hidden limit p
      · obtain ⟨p, hs⟩ := hslip
        obtain rfl := Option.some.inj (hs.tick.symm.trans htick)
        obtain ⟨ha, hlv⟩ := hs.alike hq.symm (hqv.symm hq)
        obtain ⟨p, hidden', hpass, htwin⟩ := ih ha.symm (hlv.symm ha) hl' hqf
        exact ⟨p, hidden', hrun p hpass, htwin⟩
      · rcases hq.tick hqv hl hqf (not_exists.mp hslip) hqn with ⟨l'', m', hidden', ht, ht', htwins⟩ | ⟨hover, -⟩
        · obtain rfl := Option.some.inj (htick.symm.trans ht)
          obtain ⟨p, hidden'', hpass, htwin⟩ := ih htwins.toAlike htwins.level hl' (tick_follows hqf ht')
          exact ⟨p, hidden'', hrun p (.tick ht' hpass), htwin⟩
        · rw [htick] at hover
          cases hover

/-- Time passes, if the listeners only listen. -/
theorem Calm.passes (hc : l.Calm) (h : l.Follows [] none []) (limit : Nat) : ∃ n, Passes limit l n := by
  generalize hk : 3 * l.session.ids.length + 4 = k
  induction hr : l.agenda.rank k using WellFoundedLT.induction generalizing l with
  | ind r ih =>
      cases ht : l.tick? limit with
      | none => exact ⟨_, .stop ht⟩
      | some m =>
          have hfalls : l.Falls k m := by
            unfold tick? at ht
            split at ht
            · next n hn => exact Option.some.inj ht ▸ hc.turn_falls (Nat.le_of_eq hk) h hn
            · exact advance_falls (by omega) h ht
          obtain ⟨n, hn⟩ := ih _ (hr ▸ hfalls.rank) (fun x hx => hc x (hfalls.listeners x hx)) (tick_follows h ht)
            (hfalls.ids ▸ hk) rfl
          exact ⟨n, .tick ht hn⟩

end LiveSession
end Formwork
