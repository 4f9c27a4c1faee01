import Formwork.Proofs.Requests
import Mathlib.Order.Bounds.Defs

/-!
Results of requests that are not the last one of their field are never taken over, in whatever order the
evaluations answer, and whether or not they mind being cancelled.
-/

namespace Formwork

open World

variable {ts us : List Transition} {w w' : World} {t : Transition} {field : String}

/-- What a history says about the tokens in the world that it reaches. -/
structure Ledger (ts : List Transition) (w : World) : Prop where
  issued_le : ∀ u ∈ ts, ∀ field k, u.Issues field k → ∀ c, w.session.slot? field = some c → k ≤ c.token
  origin : ∀ e ∈ w.errands, ∀ field k v, e.job = .evaluation field k v → ∃ u ∈ ts, u.Requests field e.id k v
  /-- No evaluation runs under the token of one that has answered. -/
  spent : ∀ u ∈ ts, ∀ field task k v ending, u.Ends field task k v ending →
    (∀ c, w.session.slot? field = some c → k ≤ c.token) ∧
      ∀ e ∈ w.errands, ∀ v', e.job ≠ .evaluation field k v'

namespace Ledger

theorem opened (s : Session) : Ledger [] { session := s } := ⟨by simp, by simp, by simp⟩

section

variable {event : Event} {fx : List Effect} (h : Ledger ts w) (hs : w.Step event fx w')

include h hs

theorem origin_step {e : Errand} (he : e ∈ w'.errands) {k : Nat} {v : Value}
    (hj : e.job = .evaluation field k v) :
    ∃ u ∈ ts ++ [⟨w, event, fx, w'⟩], u.Requests field e.id k v := by
  rcases hs.errand he with ⟨d, hd, hl⟩ | hstart
  · obtain ⟨u, hu, hr⟩ := h.origin d hd field k v (hl.job ▸ hj)
    exact ⟨u, List.mem_append_left _ hu, hl.id ▸ hr⟩
  · rw [hj] at hstart
    exact ⟨_, List.mem_append_right _ (List.mem_singleton_self _), hstart⟩

variable (hw : w.Sound)

include hw

theorem issued_le_step {u : Transition} (hu : u ∈ ts ++ [⟨w, event, fx, w'⟩]) {k : Nat}
    (hi : u.Issues field k) {c : Slot} (hc : w'.session.slot? field = some c) : k ≤ c.token := by
  obtain ⟨a, ha, rfl, hch⟩ := hs.change_of_after hw hc
  rcases List.mem_append.mp hu with hu | hu
  · exact Nat.le_trans (h.issued_le u hu _ k hi a ha) hch.token_le
  · obtain rfl := List.mem_singleton.mp hu
    rcases hi with ⟨task, v, hr⟩ | ⟨-, b, hb, rfl⟩
    · exact Nat.le_of_eq (hch.token_of_start hr).2
    · rw [hc, Option.some.injEq] at hb
      exact Nat.le_of_eq (congrArg Slot.token hb.symm)

theorem spent_step {u : Transition} (hu : u ∈ ts ++ [⟨w, event, fx, w'⟩]) {task k : Nat} {v : Value}
    {ending : Session.Ending} (hc : u.Ends field task k v ending) :
    (∀ c, w'.session.slot? field = some c → k ≤ c.token) ∧
      ∀ e ∈ w'.errands, ∀ v', e.job ≠ .evaluation field k v' := by
  rcases List.mem_append.mp hu with hu | hu
  · obtain ⟨hle, hgone⟩ := h.spent u hu field task k v ending hc
    refine ⟨fun c hc => ?_, fun e he v' hj => ?_⟩
    · obtain ⟨a, ha, rfl, hch⟩ := hs.change_of_after hw hc
      exact Nat.le_trans (hle a ha) hch.token_le
    · rcases hs.errand he with ⟨d, hd, hl⟩ | hstart
      · exact hgone d hd v' (hl.job ▸ hj)
      · rw [hj] at hstart
        obtain ⟨a, ha⟩ := hs.slot_of_start hstart
        obtain rfl := Session.slot?_id ha
        obtain ⟨b, -, hch⟩ := hs.change hw ha
        have := (hch.token_of_start hstart).1
        have := hle a ha
        omega
  · obtain rfl := List.mem_singleton.mp hu
    refine ⟨fun c hslot => ?_, hc.gone hs hw⟩
    obtain ⟨-, e, he, -, hj⟩ := hc
    obtain ⟨a, ha, rfl, hch⟩ := hs.change_of_after hw hslot
    exact Nat.le_trans ((hw.slot a (Session.slot?_mem ha)).token_le e he k v hj) hch.token_le

theorem step : Ledger (ts ++ [⟨w, event, fx, w'⟩]) w' :=
  ⟨fun _ hu _ _ hi _ hc => h.issued_le_step hs hw hu hi hc, fun _ he _ _ _ hj => h.origin_step hs he hj,
    fun _ hu _ _ _ _ _ hc => h.spent_step hs hw hu hc⟩

end

end Ledger

namespace History

theorem ledger (h : History ts w) : Ledger ts w := by
  induction h with
  | opened => exact .opened _
  | step hh hs ih => exact ih.step hs hh.sound

/-- The results of a field change only by being kept, dropped for a blank value, or replaced by an answer. -/
theorem result_origin (h : History ts w) (ht : t ∈ ts) {a : Slot}
    (ha : t.before.session.slot? field = some a) :
    ∃ b, t.after.session.slot? field = some b ∧
      (b.resolved = a.resolved ∧
          (b.advisory = a.advisory ∨ b.advisory = a.resolved ∨ b.advisory = { a.advisory with status := .pending }) ∨
        t.Blanks field ∧ b.resolved = {} ∧ b.advisory = {} ∨
        ∃ task token requested found, t.Commits field task token requested found ∧
          b.resolved = ⟨.resolved, found⟩ ∧ b.advisory = ⟨.resolved, found⟩) := by
  obtain ⟨hw, hs⟩ := h.mem_step ht
  obtain rfl := Session.slot?_id ha
  obtain ⟨b, hb, hch⟩ := hs.change hw ha
  refine ⟨b, hb, ?_⟩
  generalize hev : t.event = event at hch
  generalize hfx : t.effects = fx at hch
  cases hch with
  | kept _ resolved advisory => exact .inl ⟨resolved, advisory.imp_right .inl⟩
  | cleared v o hc hbl => exact .inr (.inl ⟨⟨hc, v, hev, hbl⟩, rfl, rfl⟩)
  | requested => exact .inl ⟨rfl, .inr (.inr rfl)⟩
  | committed e token requested found he hj =>
      refine .inr (.inr ⟨e.id, token, requested, found, ⟨⟨hev, e, he, rfl, hj⟩, ?_⟩, rfl, rfl⟩)
      rw [hfx]
      exact ⟨_, List.mem_singleton_self _⟩

variable {vs : List Transition} {task token : Nat} {requested : Value} {found : List Finding}

/-- An answer that is taken over is the answer to the field's last request, for the value it still has. -/
theorem commit_latest (h : History (us ++ t :: vs) w) (hc : t.Commits field task token requested found) :
    IsGreatest {k | ∃ u ∈ us, u.Issues field k} token ∧
      ∃ a, t.before.session.slot? field = some a ∧ a.value.eqv requested := by
  obtain ⟨hb, hs, -⟩ := h.prefix_step
  obtain ⟨a, ha, rfl, hv⟩ := hc.current hs hb.sound
  obtain ⟨⟨-, e, he, -, hj⟩, -⟩ := hc
  obtain ⟨u, hu, hr⟩ := hb.ledger.origin e he field _ _ hj
  refine ⟨⟨⟨u, hu, .inl ⟨_, _, hr⟩⟩, ?_⟩, a, ha, hv⟩
  rintro k ⟨u, hu, hi⟩
  exact hb.ledger.issued_le u hu field k hi a ha

theorem commit_tokens_increase (h : History (us ++ t :: vs) w)
    (hc : t.Commits field task token requested found) {u : Transition} (hu : u ∈ us) {task' token' : Nat}
    {requested' : Value} {found' : List Finding} (hc' : u.Commits field task' token' requested' found') :
    token' < token := by
  obtain ⟨hb, hs, -⟩ := h.prefix_step
  obtain ⟨a, ha, rfl, -⟩ := hc.current hs hb.sound
  obtain ⟨hle, hgone⟩ := hb.ledger.spent u hu field task' token' requested' _ hc'.1
  obtain ⟨⟨-, e, he, -, hj⟩, -⟩ := hc
  refine Nat.lt_of_le_of_ne (hle a ha) fun heq => ?_
  exact hgone e he requested (heq ▸ hj)

/-- What was requested before the field was blank is never taken over after that. -/
theorem commit_after_blank (h : History (us ++ t :: vs) w) (hc : t.Commits field task token requested found)
    {xs ys : List Transition} {r u : Transition} (hsplit : us = xs ++ r :: ys) {task' : Nat} {v : Value}
    (hr : r.Requests field task' token v) (hu : u ∈ ys) : ¬u.Blanks field := by
  rintro ⟨hcl, value, hev, hbl⟩
  obtain ⟨ys, zs, rfl⟩ := List.append_of_mem hu
  subst hsplit
  obtain ⟨⟨-, hgreat⟩, a, ha, -⟩ := h.commit_latest hc
  have hh : History ((xs ++ r :: ys) ++ u :: (zs ++ t :: vs)) w := by simpa using h
  obtain ⟨hb, hs, -⟩ := hh.prefix_step
  have hids := (h.alike (t := t) (by simp)).ids.symm.trans (h.alike (t := u) (by simp)).ids
  obtain ⟨c, hc'⟩ := Session.slot?_isSome_iff.mpr (hids ▸ Session.slot?_isSome_iff.mp ⟨a, ha⟩)
  obtain rfl := Session.slot?_id hc'
  obtain ⟨d, hd, hch⟩ := hs.change hb.sound hc'
  have hle := hb.ledger.issued_le r (by simp) _ token (.inl ⟨task', v, hr⟩) c hc'
  have hlt := hch.token_of_blank hev hcl hbl
  have := hgreat ⟨u, by simp, .inr ⟨⟨hcl, value, hev, hbl⟩, d, hd, rfl⟩⟩
  omega

/-- An evaluation that fails, is cancelled or is stale leaves every last result alone. -/
theorem stale_ignored (h : History (us ++ t :: vs) w) {ending : Session.Ending}
    (he : t.Ends field task token requested ending)
    (hstale : ending = .failed ∨ ending = .cancelled ∨ (∃ u ∈ us, ∃ k, u.Issues field k ∧ token < k) ∨
      ∃ a, t.before.session.slot? field = some a ∧ a.value.eqv requested = false)
    {g : String} {a b : Slot} (ha : t.before.session.slot? g = some a)
    (hb : t.after.session.slot? g = some b) : b.resolved = a.resolved := by
  obtain ⟨b', hb', hcases⟩ := h.result_origin (t := t) (by simp) ha
  obtain rfl := Option.some.inj (hb.symm.trans hb')
  obtain ⟨hev, e, hm, hi, hj⟩ := he
  rcases hcases with ⟨hr, -⟩ | ⟨⟨-, v, hev', -⟩, -⟩ | ⟨task', token', requested', found, hc, -⟩
  · exact hr
  · rw [hev] at hev'
    cases hev'
  · exfalso
    obtain ⟨⟨-, hgreat⟩, c, hcs, hv⟩ := h.commit_latest hc
    obtain ⟨⟨hev', e', hm', hi', hj'⟩, -⟩ := hc
    obtain ⟨ht, rfl⟩ := Event.answer.inj (hev.symm.trans hev')
    obtain ⟨hw, -⟩ := h.mem_step (t := t) (by simp)
    obtain rfl := hw.eq_of_id hm hm' (hi.trans (ht.trans hi'.symm))
    obtain ⟨rfl, rfl, rfl⟩ := Job.evaluation.inj (hj.symm.trans hj')
    rcases hstale with he | he | ⟨u, hu, k, hk, hlt⟩ | ⟨c', hc', hv'⟩
    · cases he
    · cases he
    · exact absurd (hgreat ⟨u, hu, hk⟩) (Nat.not_le.mpr hlt)
    · obtain rfl := Option.some.inj (hcs.symm.trans hc')
      rw [hv] at hv'
      cases hv'

end History

/-- Results get into the fields only as answers to the last requests. -/
structure StaleSuppressed (ts : List Transition) : Prop where
  /-- A result is kept, dropped for a blank value, or replaced by an answer. -/
  origin : ∀ t ∈ ts, ∀ field a, t.before.session.slot? field = some a →
    ∃ b, t.after.session.slot? field = some b ∧
      (b.resolved = a.resolved ∧
          (b.advisory = a.advisory ∨ b.advisory = a.resolved ∨ b.advisory = { a.advisory with status := .pending }) ∨
        t.Blanks field ∧ b.resolved = {} ∧ b.advisory = {} ∨
        ∃ task token requested found, t.Commits field task token requested found ∧
          b.resolved = ⟨.resolved, found⟩ ∧ b.advisory = ⟨.resolved, found⟩)
  /-- The answer is to the last request, and the field still has the value that was asked about. -/
  latest : ∀ us t vs, ts = us ++ t :: vs → ∀ field task token requested found,
    t.Commits field task token requested found →
      IsGreatest {k | ∃ u ∈ us, u.Issues field k} token ∧
        ∃ a, t.before.session.slot? field = some a ∧ a.value.eqv requested
  increasing : ∀ us t vs, ts = us ++ t :: vs → ∀ field task token requested found,
    t.Commits field task token requested found → ∀ u ∈ us, ∀ task' token' requested' found',
      u.Commits field task' token' requested' found' → token' < token
  /-- No request is answered after the field was blank. -/
  after_blank : ∀ xs r ys t vs, ts = (xs ++ r :: ys) ++ t :: vs → ∀ field task token requested found,
    t.Commits field task token requested found → ∀ task' v, r.Requests field task' token v →
      ∀ u ∈ ys, ¬u.Blanks field
  /-- A failure, a cancellation and a stale answer change no last result. -/
  stale : ∀ us t vs, ts = us ++ t :: vs → ∀ field task token requested ending,
    t.Ends field task token requested ending →
      (ending = .failed ∨ ending = .cancelled ∨ (∃ u ∈ us, ∃ k, u.Issues field k ∧ token < k) ∨
        ∃ a, t.before.session.slot? field = some a ∧ a.value.eqv requested = false) →
      ∀ g a b, t.before.session.slot? g = some a → t.after.session.slot? g = some b →
        b.resolved = a.resolved

/-- However edits, pauses and answers interleave, stale results are suppressed. -/
theorem stale_results_suppressed (h : History ts w) : StaleSuppressed ts where
  origin t ht field a ha := h.result_origin ht ha
  latest := by
    rintro us t vs rfl field task token requested found hc
    exact h.commit_latest hc
  increasing := by
    rintro us t vs rfl field task token requested found hc u hu task' token' requested' found' hc'
    exact h.commit_tokens_increase hc hu hc'
  after_blank := by
    rintro xs r ys t vs rfl field task token requested found hc task' v hr u hu
    exact h.commit_after_blank hc rfl hr hu
  stale := by
    rintro us t vs rfl field task token requested ending he hstale g a b ha hb
    exact h.stale_ignored he hstale ha hb

/-- In the small run the first name's answer, which comes last, is suppressed. -/
theorem stale_results_suppressed_sample :
    Sample.run.2.session.slots.map (·.resolved.findings) = [[], []] ∧ StaleSuppressed Sample.run.1 :=
  ⟨by decide +kernel, stale_results_suppressed Sample.history⟩

end Formwork
