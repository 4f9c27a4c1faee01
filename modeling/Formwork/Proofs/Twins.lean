import Formwork.Proofs.HiddenTurns
import Formwork.Proofs.Mirrors
import Formwork.Proofs.Superseding

/-!
Two live sessions of which one cancels superseded evaluations and the other one lets them go on. They differ only in
tasks that are hidden: superseded evaluations, and calls that wait. Every step that both take shows the same.
-/

namespace Formwork

/-- Nothing that the task still does can be seen in the states of the fields. -/
def Work.Stale (s : Session) : Work → Prop
  | job (.evaluation id token _) => ∀ c ∈ s.slots, c.field.id = id → token < c.token
  | job _ => False
  | wait _ => True

/-- The session knows its tasks, and those that are hidden are stale. The only calls that wait are flushes. -/
structure Session.Screened (hidden : List Nat) (roster : List (Nat × Work)) (s : Session) : Prop where
  nodup : s.ids.Nodup
  below : ∀ x ∈ roster, x.1 < s.nextTask
  known : ∀ k ∈ hidden, k < s.nextTask
  tracked : ∀ k ∈ s.tasks, k < s.nextTask ∧ ∀ x ∈ roster, x.1 = k → ∃ j, x.2 = .job j
  assigned : ∀ c ∈ s.slots, ∀ k, c.inflight = some k → ∀ work, (k, work) ∈ roster →
    ∃ v, work = .job (.evaluation c.field.id c.token v)
  stale : ∀ x ∈ roster, x.1 ∈ hidden → x.2.Stale s
  flushes : ∀ x ∈ roster, ∀ w, x.2 = .wait w → w = .flush

namespace LiveSession

/-- The states that the listeners were shown, with the times. -/
def shown (l : LiveSession) : List (Nat × String × FieldState) := l.sightings.filterMap fun
  | .shown time listener state => some (time, listener, state)
  | .mark _ => none

/-- The live sessions differ in the setting and in hidden tasks only. -/
structure Alike (hidden : List Nat) (l m : LiveSession) : Prop where
  left : l.session.Screened hidden l.agenda.roster
  right : m.session.Screened hidden m.agenda.roster
  agenda : l.agenda.Agree hidden m.agenda
  session : m.session = l.session.heeding m.session.cancelStale
  evaluator : m.evaluator = l.evaluator
  fieldPause : m.fieldPause = l.fieldPause
  formPause : m.formPause = l.formPause
  listeners : m.listeners = l.listeners
  shown : m.shown = l.shown

/-- The same, at one time. -/
structure Twins (hidden : List Nat) (l m : LiveSession) : Prop extends Alike hidden l m where
  now : m.now = l.now

end LiveSession

namespace Session.Screened

variable {hidden : List Nat} {roster : List (Nat × Work)} {s s' : Session} {superseded : Option Nat} {job? : Option Job}

theorem heeding (h : s.Screened hidden roster) (cancelStale : Bool) : (s.heeding cancelStale).Screened hidden roster :=
  ⟨h.nodup, h.below, h.known, h.tracked, h.assigned, fun x hx hk => by
    have hs := h.stale x hx hk
    cases hw : x.2 with
    | wait w => trivial
    | job j => rw [hw] at hs; cases j <;> exact hs, h.flushes⟩

theorem task_lt {a : Agenda} (h : s.Screened hidden roster) (hr : a.roster = roster) :
    ∀ t ∈ a.tasks, t.id < s.nextTask :=
  fun t ht => h.below (t.id, t.work) (hr ▸ List.mem_map_of_mem ht)

theorem known_superseded (h : s.Screened hidden roster) (hm : s.Moves s' superseded job?) :
    ∀ k ∈ superseded.toList ++ hidden, k < s.nextTask := by
  intro k hk
  rcases List.mem_append.mp hk with hk | hk
  · obtain ⟨c, hc, hi, -⟩ := hm.superseded k (by simpa using hk)
    exact (h.tracked k (mem_tasks.mpr (.inr ⟨c, hc, .inr hi⟩))).1
  · exact h.known k hk

/-- The evaluation that a step supersedes is stale after it. -/
theorem moved (h : s.Screened hidden roster) (hm : s.Moves s' superseded job?) :
    s'.Screened (superseded.toList ++ hidden) (roster ++ (job?.map fun j => (s.nextTask, Work.job j)).toList) := by
  have hle : s.nextTask ≤ s'.nextTask := hm.next ▸ Nat.le_add_right _ _
  have old : ∀ x ∈ roster ++ (job?.map fun j => (s.nextTask, Work.job j)).toList,
      x ∈ roster ∨ ∃ j, job? = some j ∧ x = (s.nextTask, .job j) := by
    intro x hx
    refine (List.mem_append.mp hx).imp_right fun hx => ?_
    cases job? with
    | none => cases hx
    | some j => exact ⟨j, rfl, by simpa using hx⟩
  have known := h.known_superseded hm
  refine ⟨hm.ids ▸ h.nodup, ?_, fun k hk => Nat.lt_of_lt_of_le (known k hk) hle, ?_, ?_, ?_, ?_⟩
  · intro x hx
    rcases old x hx with hx | ⟨j, rfl, rfl⟩
    · exact Nat.lt_of_lt_of_le (h.below x hx) hle
    · rw [hm.next]
      exact Nat.lt_succ_self _
  · intro k hk
    rcases hm.tracked k hk with hk | ⟨rfl, hj⟩
    · obtain ⟨hlt, hjob⟩ := h.tracked k hk
      refine ⟨Nat.lt_of_lt_of_le hlt hle, fun x hx hi => ?_⟩
      rcases old x hx with hx | ⟨j, -, rfl⟩
      · exact hjob x hx hi
      · exact ⟨j, rfl⟩
    · obtain ⟨j, rfl⟩ := Option.isSome_iff_exists.mp hj
      refine ⟨hm.next ▸ Nat.lt_succ_self _, fun x hx hi => ?_⟩
      rcases old x hx with hx | ⟨j, -, rfl⟩
      · exact absurd (h.below x hx) (hi ▸ Nat.lt_irrefl _)
      · exact ⟨j, rfl⟩
  · intro d hd k hk work hx
    obtain ⟨c, hc, hfield, -, hin⟩ := hm.slots d hd
    rcases hin k hk with ⟨hi, htok⟩ | ⟨rfl, v, hj⟩
    · have hlt := (h.tracked k (mem_tasks.mpr (.inr ⟨c, hc, .inr hi⟩))).1
      rcases old _ hx with hx | ⟨j, -, he⟩
      · rw [hfield, htok]
        exact h.assigned c hc k hi work hx
      · rw [(Prod.mk.inj he).1] at hlt
        exact absurd hlt (Nat.lt_irrefl _)
    · rcases old _ hx with hx | ⟨j, hj', he⟩
      · exact absurd (h.below _ hx) (Nat.lt_irrefl _)
      · obtain rfl := Option.some.inj (hj.symm.trans hj')
        exact ⟨v, (Prod.mk.inj he).2⟩
  · intro x hx hk
    rcases old x hx with hx | ⟨j, -, rfl⟩
    · rcases List.mem_append.mp hk with hk | hk
      · obtain ⟨c, hc, hi, hlt⟩ := hm.superseded x.1 (by simpa using hk)
        obtain ⟨v, hw⟩ := h.assigned c hc x.1 hi x.2 hx
        rw [hw]
        exact hlt
      · have hs := h.stale x hx hk
        cases hw : x.2 with
        | wait w => trivial
        | job j =>
            rw [hw] at hs
            cases j with
            | fieldTimer | formTimer => cases hs
            | evaluation id token v =>
                intro d hd hid
                obtain ⟨c, hc, hfield, hle, -⟩ := hm.slots d hd
                exact Nat.lt_of_lt_of_le (hs c hc (hfield ▸ hid)) hle
    · exact absurd (known _ hk) (Nat.lt_irrefl _)
  · intro x hx w hw
    rcases old x hx with hx | ⟨j, -, rfl⟩
    · exact h.flushes x hx w hw
    · cases hw

end Session.Screened

namespace LiveSession

variable {hidden : List Nat} {l m : LiveSession} {k : Nat}

theorem Alike.symm (h : Alike hidden l m) : Alike hidden m l where
  left := h.right
  right := h.left
  agenda := h.agenda.symm
  session := by rw [h.session]; rfl
  evaluator := h.evaluator.symm
  fieldPause := h.fieldPause.symm
  formPause := h.formPause.symm
  listeners := h.listeners.symm
  shown := h.shown.symm

theorem Alike.trans {n : LiveSession} (h : Alike hidden l m) (h' : Alike hidden m n) : Alike hidden l n where
  left := h.left
  right := h'.right
  agenda := h.agenda.trans h'.agenda
  session := by rw [h'.session, h.session]; rfl
  evaluator := h'.evaluator.trans h.evaluator
  fieldPause := h'.fieldPause.trans h.fieldPause
  formPause := h'.formPause.trans h.formPause
  listeners := h'.listeners.trans h.listeners
  shown := h'.shown.trans h.shown

theorem Alike.ids_eq (h : Alike hidden l m) : m.session.ids = l.session.ids := by
  rw [h.session]
  rfl

theorem Alike.tasks_eq (h : Alike hidden l m) : m.session.tasks = l.session.tasks := by
  rw [h.session]
  rfl

theorem Alike.nextTask_eq (h : Alike hidden l m) : m.session.nextTask = l.session.nextTask := by
  rw [h.session]
  rfl

theorem Twins.symm (h : Twins hidden l m) : Twins hidden m l := ⟨h.toAlike.symm, h.now.symm⟩

theorem Twins.trans {n : LiveSession} (h : Twins hidden l m) (h' : Twins hidden m n) : Twins hidden l n :=
  ⟨h.toAlike.trans h'.toAlike, h'.now.trans h.now⟩

/-! ## Steps -/

/-- A step is carried out, except that nothing has been shown yet. -/
def tended (l : LiveSession) (s : Session) (cancels : List Nat) (task : Nat) (job? : Option Job) : LiveSession :=
  { l with
    session := s
    agenda := (job?.map fun j => (task, Work.job j)).toList.foldl (fun a x => a.start x.1 x.2)
      (cancels.foldl Agenda.cancel l.agenda) }

section

variable {step : Session → Stepped} {s' : Session} {cancels : List Nat} {superseded : Option Nat} {job? : Option Job}
  {shows : List FieldState}

theorem carryOut_asks (edit : Editing) {r : Stepped} {task : Nat}
    (h : r.2 = cancels.map .cancel ++ ((job?.map (Effect.start task)).toList ++ shows.map .show)) :
    carryOut edit l r = (shows.map Effect.show).foldl (perform edit) (l.tended r.1 cancels task job?) := by
  rw [carryOut, h, List.foldl_append, List.foldl_append, perform_cancels]
  cases job? <;> rfl

theorem carryOut_tended (edit : Editing) (h : l.session.Indifferent step s' cancels superseded job? shows) :
    carryOut edit l (step l.session) = (shows.map Effect.show).foldl (perform edit)
      (l.tended (s'.heeding l.session.cancelStale)
        (cancels ++ if l.session.cancelStale then superseded.toList else []) l.session.nextTask job?) := by
  have hsame := h.same l.session.cancelStale
  have hextra : (if l.session.cancelStale then Session.cancelOf superseded else []) =
      (if l.session.cancelStale then superseded.toList else []).map Effect.cancel := by
    split <;> rfl
  rw [Session.heeding_self, hextra, ← List.append_assoc, ← List.map_append] at hsame
  rw [hsame]
  exact carryOut_asks edit rfl

/-- What is tracked by the session is no call that waits. -/
theorem Alike.not_wait (h : Alike hidden l m) (hk : k ∈ l.session.tasks) :
    ∀ t ∈ l.agenda.tasks, t.id = k → ∀ w, t.work = .wait w → t.stage ≠ .fresh := by
  intro t ht hi w hw
  obtain ⟨j, hj⟩ := (h.left.tracked k hk).2 (t.id, t.work) (List.mem_map_of_mem ht) hi
  cases hj.symm.trans hw

theorem tended_roster {l : LiveSession} (ha : l.agenda.Hides hidden) {ks : List Nat}
    (hj : ∀ k ∈ ks, ∀ x ∈ l.agenda.roster, x.1 = k → ∃ j, x.2 = .job j) (s : Session) (job? : Option Job) (task : Nat) :
    (l.tended s ks task job?).agenda.roster =
      l.agenda.roster ++ (job?.map fun j => (task, Work.job j)).toList := by
  have hr := ha.cancels_roster hj
  cases job? with
  | none => exact hr.trans (List.append_nil _).symm
  | some j => exact (Agenda.roster_start ..).trans (congrArg (· ++ _) hr)

theorem tended_now (l : LiveSession) (s : Session) (cancels : List Nat) (task : Nat) (job? : Option Job) :
    (l.tended s cancels task job?).now = l.now := by
  cases job? <;> exact Agenda.cancels_now ..

theorem Twins.tended (h : Twins hidden l m) (hs : l.session.Indifferent step s' cancels superseded job? shows) :
    Twins (superseded.toList ++ hidden)
      (l.tended (s'.heeding l.session.cancelStale)
        (cancels ++ if l.session.cancelStale then superseded.toList else []) l.session.nextTask job?)
      (m.tended (s'.heeding m.session.cancelStale)
        (cancels ++ if m.session.cancelStale then superseded.toList else []) m.session.nextTask job?) := by
  have hsup : ∀ k ∈ superseded.toList, k ∈ l.session.tasks := by
    intro k hk
    obtain ⟨c, hc, hi, -⟩ := hs.moves.superseded k (by simpa using hk)
    exact Session.mem_tasks.mpr (.inr ⟨c, hc, .inr hi⟩)
  have extra : ∀ (b : Bool), ∀ k ∈ (if b then superseded.toList else []), k ∈ superseded.toList := by
    intro b k hk
    cases b with
    | false => cases hk
    | true => exact hk
  have jobs : ∀ {n : LiveSession} (b : Bool), n.session.Screened hidden n.agenda.roster →
      n.session.tasks = l.session.tasks → ∀ k ∈ cancels ++ (if b then superseded.toList else []),
        ∀ x ∈ n.agenda.roster, x.1 = k → ∃ j, x.2 = .job j := by
    intro n b hn he k hk
    refine (hn.tracked k (he ▸ ?_)).2
    exact (List.mem_append.mp hk).elim (hs.known k) fun hk => hsup k (extra b k hk)
  -- what is superseded is hidden from now on, and one of the two may cancel it
  have hidden_too : l.agenda.Agree (superseded.toList ++ hidden) m.agenda := by
    cases superseded with
    | none => exact h.agenda
    | some k =>
        have hk := hsup k (by simp)
        exact h.agenda.hide (h.toAlike.not_wait hk) (h.toAlike.symm.not_wait (h.tasks_eq ▸ hk))
  have hjl := jobs l.session.cancelStale h.left rfl
  have hjm := jobs m.session.cancelStale h.right h.tasks_eq
  have cancelled := hidden_too.cancels_append cancels (fun k hk => List.mem_append_left _ (extra _ k hk))
    (fun k hk => List.mem_append_left _ (extra _ k hk)) hjl hjm
  have hl := tended_roster hidden_too.left hjl (s'.heeding l.session.cancelStale) job? l.session.nextTask
  have hm := tended_roster hidden_too.right hjm (s'.heeding m.session.cancelStale) job? m.session.nextTask
  have hmoves := (hs.heeding m.session.cancelStale).moves
  rw [← h.session] at hmoves
  refine ⟨⟨?_, ?_, ?_, rfl, h.evaluator, h.fieldPause, h.formPause, h.listeners, h.shown⟩, ?_⟩
  · rw [hl]
    exact (h.left.moved hs.moves).heeding _
  · rw [hm]
    exact (h.right.moved hmoves).heeding _
  · rw [h.nextTask_eq]
    cases job? with
    | none => exact cancelled
    | some j =>
        refine cancelled.start (fun t ht => ?_) (fun t ht => ?_) (fun hk => ?_) (.job j)
        · exact h.left.task_lt (hidden_too.left.cancels_roster hjl) t ht
        · exact h.nextTask_eq ▸ h.right.task_lt (hidden_too.right.cancels_roster hjm) t ht
        · exact Nat.lt_irrefl _ (h.left.known_superseded hs.moves _ hk)
  · exact (tended_now ..).trans (h.now.trans (tended_now ..).symm)

end

end LiveSession
end Formwork
