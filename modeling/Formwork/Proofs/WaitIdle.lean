import Formwork.Proofs.OtherFields
import Formwork.Proofs.Resting
import Formwork.Proofs.Schedules

/-!
A wait for rest returns, however time passes and whatever the evaluations answer, if the session is left alone. It takes
two rounds at most.
-/

namespace Formwork

namespace LiveSession

variable {l m n q : LiveSession} {w : Wait} {ts : List World.Transition} {k task bound : Nat} {children : List Nat}
  {P : LiveSession → Prop}

/-! ## What is bound to happen -/

/-- Nothing happens, but time passes, and the evaluator may come to other answers. -/
inductive Lulls (l : LiveSession) : LiveSession → Prop
  | start : Lulls l l
  | clock {m : LiveSession} (h : Lulls l m) (time : Nat) (ht : m.turn? = none) (ha : m.advance? (some time) = none) :
      Lulls l (m.clockTo time)
  | evaluator {m : LiveSession} (h : Lulls l m) (e : Evaluator) : Lulls l { m with evaluator := e }

/-- A turn is taken, or the next alarms go off. -/
inductive Stirs (l m : LiveSession) : Prop
  | turn (h : l.turn? = some m)
  | alarms (ht : l.turn? = none) (h : l.advance? none = some m)

/-- It comes to be so sooner or later, in whatever way the session goes on. -/
inductive Inevitable (P : LiveSession → Prop) : LiveSession → Prop
  | now {l : LiveSession} (h : P l) : Inevitable P l
  | later {l : LiveSession} (hstirs : ∀ m, l.Lulls m → ∃ n, m.Stirs n)
      (h : ∀ m, l.Lulls m → ∀ n, m.Stirs n → Inevitable P n) : Inevitable P l

theorem Stirs.onward (h : m.Stirs n) : m.Onward n := by
  cases h with
  | turn h => exact .turn h
  | alarms ht h => exact .alarms ht h

theorem Lulls.preserved (h : l.Lulls m) (hP : ∀ {m n : LiveSession}, P m → m.Onward n → P n) (hl : P l) : P m := by
  induction h with
  | start => exact hl
  | clock _ time ht ha ih => exact hP ih (.clock time ht ha)
  | evaluator _ e ih => exact hP ih (.evaluator e)

theorem Lulls.same (h : l.Lulls m) (k : Nat) :
    m.session.ids = l.session.ids ∧ m.agenda.tasks = l.agenda.tasks ∧ m.agenda.rank k = l.agenda.rank k := by
  induction h with
  | start => exact ⟨rfl, rfl, rfl⟩
  | clock _ _ _ _ ih | evaluator _ _ ih => exact ih

/-- What holds as long as the session is left alone holds along the way. -/
theorem Trail.preserved {ps : List Passage} (h : l.Trail ps m) (hP : ∀ {m n : LiveSession}, P m → m.Onward n → P n)
    (hl : P l) : P m := by
  induction h with
  | start => exact hl
  | onward _ hn ih => exact hP ih hn

/-! ## A call that waits for rest -/

/-- The call has returned. -/
def Returned (m : LiveSession) (task : Nat) (w : Wait) : Prop :=
  { id := task, work := .wait w, stage := .done } ∈ m.agenda.tasks

section

variable {g : Nat} (hu : m.Undisturbed) (hg : m.Gathers task g children)
  (ht : { id := task, work := .wait w, stage := .gathering g } ∈ m.agenda.tasks) (hturns : m.agenda.turns = [])

include hu hg ht hturns

/-- A call whose round goes on, and which nobody is about to tell, waits for a job that has not ended. -/
theorem Gathers.unfinished : ∃ k ∈ children, m.agenda.isDone k = false := by
  have hwakes := hu.lived.wakes
  obtain ⟨x, hx, hi, -, hleft⟩ := (hwakes.wakeful _ ht).gathering g rfl
  obtain rfl := hg.children_eq hu.lived.attentive.follows.orderly hx hi.symm
  have htally := hwakes.tallied x hx hg.nodup
  simp only [hturns, List.count_nil, Nat.add_zero] at htally
  obtain ⟨k, hk, hopen⟩ := List.countP_pos_iff.mp (Nat.lt_of_lt_of_le hleft htally)
  exact ⟨k, hk, by simpa using hopen⟩

theorem Gathers.stirs : m.agenda.alarms ≠ [] := by
  intro halarms
  obtain ⟨k, hk, hopen⟩ := hg.unfinished hu ht hturns
  obtain ⟨t, htask, rfl, j, hj⟩ := hg.jobs k hk
  have ho := hu.lived.attentive.follows.orderly
  have hdone := hu.lived.wakes.job_done ho hturns halarms htask hj
  simp [Agenda.isDone_of_stage (ho.stage_of_mem htask), hdone] at hopen

end

section

variable (hnone : ∀ n, ¬m.Stirs n)

include hnone

theorem turns_of_still : m.agenda.turns = [] := by
  by_contra hsome
  obtain ⟨n, hn⟩ := Option.ne_none_iff_exists'.mp fun h => hsome (turn?_eq_none.mp h)
  exact hnone n (.turn hn)

theorem alarms_of_still : m.agenda.alarms = [] := by
  by_contra hsome
  have hadvance : m.agenda.advance? none ≠ none := fun h => by
    obtain ⟨x, hx⟩ := List.exists_mem_of_ne_nil _ hsome
    obtain ⟨n, hn, -⟩ := Agenda.advance?_eq_none.mp h x hx
    cases hn
  obtain ⟨a, ha⟩ := Option.ne_none_iff_exists'.mp hadvance
  exact hnone _ (.alarms (turn?_eq_none.mpr (turns_of_still hnone)) (congrArg (Option.map _) ha))

end

theorem Undisturbed.awake_due (hu : m.Undisturbed) (ht : { id := task, work := .wait w, stage := .awake } ∈ m.agenda.tasks) :
    m.agenda.turns ≠ [] := by
  intro hturns
  have hdue := (hu.lived.wakes.wakeful _ ht).due (.inr rfl)
  simp [Agenda.due, hturns] at hdue

theorem Settles.stirs (hu : m.Undisturbed) (h : m.Settles task w bound children) (hr : ¬m.Returned task w) :
    ∃ n, m.Stirs n := by
  by_contra hnone
  have hturns := turns_of_still (not_exists.mp hnone)
  cases h with
  | gathering g ht hg => exact hg.stirs hu ht hturns (alarms_of_still (not_exists.mp hnone))
  | awake ht => exact hu.awake_due ht hturns
  | returned ht => exact hr ht

/-- As long as the call has not returned, something is to come. -/
theorem Rests.stirs (hu : m.Undisturbed) (h : m.Rests task w bound) (hr : ¬m.Returned task w) : ∃ n, m.Stirs n := by
  cases h with
  | settles children h => exact h.stirs hu hr
  | ticking g children ht hg =>
      by_contra hnone
      exact hg.stirs hu ht (turns_of_still (not_exists.mp hnone)) (alarms_of_still (not_exists.mp hnone))
  | between ht =>
      by_contra hnone
      exact hu.awake_due ht (turns_of_still (not_exists.mp hnone))

theorem Stirs.falls (hu : m.Undisturbed) (h : m.Stirs n) (hk : 3 * m.session.ids.length + 4 = k) : m.Falls k n := by
  have hf := hu.lived.attentive.follows
  cases h with
  | turn h => exact hu.calm.turn_falls (Nat.le_of_eq hk) hf h
  | alarms _ h => exact advance_falls (by omega) hf h

/-- The call is bound to return. -/
theorem Rests.inevitable (hw : w = .idle ∨ w = .flush) (hu : m.Undisturbed) (h : m.Rests task w bound) :
    m.Inevitable (·.Returned task w) := by
  generalize hk : 3 * m.session.ids.length + 4 = k
  -- every turn leaves less to be done
  induction hr : m.agenda.rank k using WellFoundedLT.induction generalizing m with
  | ind r ih =>
      by_cases hdone : m.Returned task w
      · exact .now hdone
      have lulled {q : LiveSession} (hq : m.Lulls q) : q.Undisturbed ∧ q.Rests task w bound :=
        hq.preserved (P := fun q => q.Undisturbed ∧ q.Rests task w bound)
          (fun hq hn => ⟨hq.1.onward hn, hq.2.onward hw hq.1 hn⟩) ⟨hu, h⟩
      refine .later (fun q hq => ?_) fun q hq n hn => ?_
      · refine (lulled hq).2.stirs (lulled hq).1 fun hreturned => hdone ?_
        rwa [Returned, (hq.same k).2.1] at hreturned
      · obtain ⟨hids, -, hrank⟩ := hq.same k
        have hfalls := hn.falls (lulled hq).1 (hids ▸ hk)
        refine ih _ ?_ ((lulled hq).1.onward hn.onward) ((lulled hq).2.onward hw (lulled hq).1 hn.onward) ?_ rfl
        · exact hr ▸ hrank ▸ hfalls.rank
        · exact hfalls.ids ▸ hids ▸ hk

/-! ## The call is made -/

theorem timers_called (l : LiveSession) (w : Wait) : (l.called w).timers = l.timers := by
  have hnone : [({ id := l.session.nextTask, work := .wait w } : Task)].filter Task.ticks = [] := by
    simp [Task.ticks]
  rw [timers, timers, called, List.filter_append, hnone, List.append_nil]

/-- A call that begins to wait disturbs nobody. -/
theorem awaitRest_undisturbed (hl : (q.awaitRest task).Lived) (hc : q.Calm)
    (hwaits : ∀ t ∈ q.agenda.tasks, t.id ≠ task → t.stage = .fresh → t.work ≠ .wait .flush ∧ t.work ≠ .wait .close) :
    (q.awaitRest task).Undisturbed := by
  have hstaged : ∃ s, s ≠ .fresh ∧ (q.awaitRest task).agenda.tasks = (q.agenda.setStage task s).tasks := by
    simp only [LiveSession.awaitRest]
    split_ifs
    · exact ⟨.done, by simp, Agenda.finish_tasks ..⟩
    · exact ⟨.gathering q.agenda.gatherings.length, by simp, Agenda.gather_tasks ..⟩
  obtain ⟨s, hs, htasks⟩ := hstaged
  refine ⟨hl, fun x hx => hc x ((q.awaitRest_same task).1 ▸ hx), fun x hx hfresh => ?_⟩
  obtain ⟨t, ht, rfl⟩ := List.mem_map.mp (htasks ▸ hx)
  by_cases hi : t.id = task
  · rw [if_pos hi] at hfresh
    exact absurd hfresh hs
  · rw [if_neg hi] at hfresh ⊢
    exact hwaits t ht hi hfresh

theorem enter_idle_undisturbed (hu : l.Undisturbed) : (l.enter .idle).Undisturbed := by
  refine awaitRest_undisturbed (hu.lived.moves (.enter .idle)) hu.calm fun t ht hi => ?_
  rcases List.mem_append.mp ht with ht | ht
  · exact hu.waits t ht
  · exact absurd (congrArg Task.id (List.mem_singleton.mp ht)) hi

theorem enter_idle_rests (hu : l.Undisturbed) : (l.enter .idle).Rests l.session.nextTask .idle 2 := by
  have hcalled := called_follows hu.lived.attentive.follows .idle
  have hnone : (l.called .idle).agenda.rounds l.session.nextTask = [] := hu.lived.rounds _ (Nat.le_refl _)
  refine (hcalled.known_caller.begins hcalled.orderly.distinct (s := .fresh)
    (List.mem_append_right _ (List.mem_singleton_self _)) (by simp)).rests hcalled.known_caller ?_
  simp [hnone]

/-- The call itself starts nothing, and makes no timer live. -/
theorem enter_idle_quiet (hu : l.Undisturbed) :
    (l.enter .idle).agenda.requests = l.agenda.requests ∧ ∀ k ∈ (l.enter .idle).timers, k ∈ l.timers := by
  have hf := called_follows hu.lived.attentive.follows .idle
  have hbides : (l.called .idle).Bides l.session.nextTask (l.enter .idle) := by
    refine awaitRest_bides (t := { id := l.session.nextTask, work := .wait .idle }) fun u hm hi => ?_
    rw [List.inj_on_of_nodup_map hf.orderly.distinct hm (List.mem_append_right _ (List.mem_singleton_self _)) hi]
    simp
  refine ⟨?_, fun k hk => l.timers_called .idle ▸ timers_continue hbides.continues k hk⟩
  rw [Agenda.requests, hbides.roster]
  simp [called, Agenda.roster, Agenda.requests, Work.request?]

end LiveSession

/-- A wait for rest ends within two rounds, if the session is left alone: nobody edits, flushes or closes it, and the
listeners only listen. Until then each of the timers that were live at the call goes off at most once, and nothing is
started but the evaluations that they seek. -/
theorem wait_idle_two_rounds {l : LiveSession} (hl : l.Lived) (hc : l.Calm)
    (hwaits : ∀ t ∈ l.agenda.tasks, t.stage = .fresh → t.work ≠ .wait .flush ∧ t.work ≠ .wait .close) :
    (l.enter .idle).Inevitable (·.Returned l.session.nextTask .idle) ∧
      (l.enter .idle).agenda.requests = l.agenda.requests ∧ ∀ ps m, (l.enter .idle).Trail ps m →
        (m.agenda.rounds l.session.nextTask).length ≤ 2 ∧ (ps.flatMap LiveSession.Passage.fired).Nodup ∧
          (∀ k ∈ ps.flatMap LiveSession.Passage.fired, k ∈ l.timers) ∧
            ∀ p ∈ ps, p.requests = p.fired.flatMap p.before.sought := by
  have hu : l.Undisturbed := ⟨hl, hc, hwaits⟩
  have hentered := LiveSession.enter_idle_undisturbed hu
  have hrests := LiveSession.enter_idle_rests hu
  obtain ⟨hrequests, htimers⟩ := LiveSession.enter_idle_quiet hu
  refine ⟨hrests.inevitable (.inl rfl) hentered, hrequests, fun ps m htrail => ?_⟩
  obtain ⟨-, hnodup, hfired, -, hsought⟩ := hentered.trail htrail
  have hend := htrail.preserved (P := fun m => m.Undisturbed ∧ m.Rests l.session.nextTask .idle 2)
    (fun h hn => ⟨h.1.onward hn, h.2.onward (.inl rfl) h.1 hn⟩) ⟨hentered, hrests⟩
  exact ⟨hend.2.bounded, hnodup, fun k hk => htimers k (hfired k hk).1, hsought⟩

namespace Sample

/-- A name has been entered, and its pause goes on. -/
def entered : LiveSession := ((naming false).edit "name" (.text "Bo")).1

theorem entered_lived : entered.Lived := .moves (.opened (naming_opened false) _ _ _ _) (.edit _ _)

theorem entered_calm : entered.Calm := by
  intro x hx state
  have hname : x ∈ [({ name := "screen" } : Listener)] := hx
  rw [List.mem_singleton.mp hname]

theorem entered_waits : ∀ t ∈ entered.agenda.tasks, t.stage = .fresh → t.work ≠ .wait .flush ∧ t.work ≠ .wait .close := by
  have hfield : ∀ t ∈ entered.agenda.tasks, t.work.field? = some "name" := by decide +kernel
  refine fun t ht _ => ⟨fun hw => ?_, fun hw => ?_⟩ <;> simpa [hw, Work.field?] using hfield t ht

end Sample

/-- The pause is awaited in one round, and the evaluation of the name in another one. -/
theorem wait_idle_two_rounds_entered :
    Sample.entered.timers = [0] ∧ (Sample.entered.enter .idle).Inevitable (·.Returned 1 .idle) ∧
      (∀ ps m, (Sample.entered.enter .idle).Trail ps m → (m.agenda.rounds 1).length ≤ 2) ∧
        (LiveSession.await 20 Sample.entered .idle).agenda.rounds 1 = [(0, [0]), (1, [2])] := by
  have hnext : Sample.entered.session.nextTask = 1 := by decide +kernel
  have hrounds := wait_idle_two_rounds Sample.entered_lived Sample.entered_calm Sample.entered_waits
  rw [hnext] at hrounds
  exact ⟨by decide +kernel, hrounds.1, fun ps m h => (hrounds.2.2 ps m h).1, by decide +kernel⟩

end Formwork
