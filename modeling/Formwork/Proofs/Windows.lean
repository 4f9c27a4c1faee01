import Formwork.Proofs.Played

/-!
The window after an edit, in which another edit takes its place. The edits that outlast their windows are those that are
requested.
-/

namespace Formwork

namespace TimedEdit

/-- The edits with a value that no other one follows before their pause is over. -/
def lasting (pause : Nat) : List TimedEdit → List TimedEdit
  | [] => []
  | e :: es =>
      if e.value.isBlank || es.any fun x => x.time < e.time + pause then lasting pause es
      else e :: lasting pause es

variable {pause : Nat} {es : List TimedEdit} {e x : TimedEdit}

theorem mem_lasting (h : e ∈ lasting pause es) : e ∈ es ∧ e.value.isBlank = false := by
  induction es with
  | nil => cases h
  | cons y es ih =>
      rw [lasting] at h
      split at h
      · exact ⟨List.mem_cons_of_mem _ (ih h).1, (ih h).2⟩
      · next hy =>
          rcases List.mem_cons.mp h with rfl | h
          · simp only [Bool.or_eq_true, not_or, Bool.not_eq_true] at hy
            exact ⟨List.mem_cons_self .., hy.1⟩
          · exact ⟨List.mem_cons_of_mem _ (ih h).1, (ih h).2⟩

/-- One more edit takes the place of those whose windows are open. -/
theorem lasting_append (pause : Nat) (es : List TimedEdit) (x : TimedEdit) : lasting pause (es ++ [x]) =
    ((lasting pause es).filter fun e => e.time + pause ≤ x.time) ++ if x.value.isBlank then [] else [x] := by
  induction es with
  | nil => cases hx : x.value.isBlank <;> simp [lasting, hx]
  | cons e es ih =>
      rw [List.cons_append, lasting, lasting, ih, List.any_append]
      by_cases hold : e.value.isBlank || es.any fun y => y.time < e.time + pause
      · rw [if_pos hold, if_pos]
        rw [← Bool.or_assoc, hold, Bool.true_or]
      · rw [if_neg hold]
        by_cases hx : x.time < e.time + pause
        · have hlate : ¬e.time + pause ≤ x.time := by omega
          rw [if_pos (by simp [hx]), List.filter_cons_of_neg (by simpa using hlate)]
        · have hlate : e.time + pause ≤ x.time := by omega
          rw [if_neg (by simpa [hx] using hold), List.filter_cons_of_pos (by simpa using hlate), List.cons_append]

end TimedEdit

namespace Agenda

open TimedEdit

variable {pause d time k : Nat} {work : Work} {es fired : List TimedEdit} {x : TimedEdit} {timer : Option Nat}
  {a b : Agenda}

/-- The windows of some edits are over, and that of the last edit may still be open, for which a task waits. -/
inductive Awaits (pause : Nat) (work : Work) (es fired : List TimedEdit) (a : Agenda) : Option Nat → Prop
  | still (hl : lasting pause es = fired) (hp : ∀ e ∈ fired, e.time + pause ≤ a.now) : Awaits pause work es fired a none
  | waiting {k : Nat} {e : TimedEdit} (hlast : es.getLast? = some e) (hl : lasting pause es = fired ++ [e])
      (hp : ∀ e ∈ fired, e.time + pause ≤ a.now) (hk : a.Ticks k work e.time pause) :
      Awaits pause work es fired a (some k)

namespace Awaits

theorem start (pause : Nat) (work : Work) (a : Agenda) : Awaits pause work [] [] a none := .still rfl (by simp)

theorem frame (h : a.Awaits pause work es fired timer) (hs : ∀ k, timer = some k → Spares k a b)
    (hn : a.now ≤ b.now) : b.Awaits pause work es fired timer := by
  cases h with
  | still hl hp => exact .still hl fun e he => (hp e he).trans hn
  | waiting hlast hl hp hk => exact .waiting hlast hl (fun e he => (hp e he).trans hn) (hk.frame (hs _ rfl))

/-- The task for which there is a window is there, and goes on. -/
theorem task (h : a.Awaits pause work es fired (some k)) :
    ∃ s, a.task? k = some { id := k, work, stage := s } ∧ s ≠ .done := by
  cases h with
  | waiting _ _ _ hk => exact hk.task

theorem past (h : a.Awaits pause work es fired timer) : ∀ e ∈ fired, e.time + pause ≤ a.now := by
  cases h with
  | still _ hp => exact hp
  | waiting _ _ hp _ => exact hp

/-- The window of the last edit is not over. -/
theorem now_le (h : a.Awaits pause work es fired (some k)) :
    ∃ e, es.getLast? = some e ∧ e.value.isBlank = false ∧ a.now ≤ e.time + pause := by
  cases h with
  | @waiting k e hlast hl hp hk =>
      have hlasting : e ∈ lasting pause es := by simp [hl]
      refine ⟨e, hlast, (mem_lasting hlasting).2, ?_⟩
      cases hk with
      | fresh _ _ hnow => omega
      | asleep _ _ hnow => omega
      | awake _ _ hnow => omega

/-- Another edit is made, not at the very end of a window. -/
theorem replaced (h : a.Awaits pause work es fired timer) (hpos : 0 < pause) (hx : x.time = a.now)
    (hapart : ∀ e ∈ es, e.value.isBlank = false → x.time ≠ e.time + pause) :
    lasting pause (es ++ [x]) = fired ++ if x.value.isBlank then [] else [x] := by
  have hkeep : ∀ fired : List TimedEdit, (∀ e ∈ fired, e.time + pause ≤ a.now) →
      (fired.filter fun e => e.time + pause ≤ x.time) = fired := fun fired hp =>
    List.filter_eq_self.mpr fun e he => by simpa [hx] using hp e he
  rw [lasting_append]
  cases h with
  | still hl hp => rw [hl, hkeep fired hp]
  | @waiting k e hlast hl hp hk =>
      have hopen : ¬e.time + pause ≤ x.time := by
        rw [hx]
        cases hk with
        | fresh _ _ hnow => omega
        | asleep _ _ hnow => omega
        | awake _ _ hnow =>
            have hlasting : e ∈ lasting pause es := by simp [hl]
            obtain ⟨hmem, hvalue⟩ := mem_lasting hlasting
            exact absurd (hx.trans hnow) (hapart e hmem hvalue)
      rw [hl, List.filter_append, hkeep fired hp, List.filter_cons_of_neg (by simpa using hopen)]
      simp

/-- The window of the last edit is over. -/
theorem fires (h : a.Awaits pause work es fired (some k))
    (hs : ∀ s, a.task? k = some { id := k, work, stage := s } → s = .awake) :
    ∃ e, es.getLast? = some e ∧ a.now = e.time + pause ∧ lasting pause es = fired ++ [e] ∧
      ∀ x ∈ fired ++ [e], x.time + pause ≤ a.now := by
  cases h with
  | @waiting k e hlast hl hp hk =>
      have hnow : a.now = e.time + pause := by
        cases hk with
        | fresh ht => cases hs _ ht
        | asleep ht => cases hs _ ht
        | awake _ _ hnow => exact hnow
      refine ⟨e, hlast, hnow, hl, fun x hx => ?_⟩
      rcases List.mem_append.mp hx with hx | hx
      · exact hp x hx
      · rw [List.mem_singleton.mp hx, hnow]

/-- The task has its first turn. -/
theorem sleeps (h : a.Awaits pause work es fired (some k)) (hpos : 0 < pause)
    (ht : a.task? k = some { id := k, work }) (hb : b.task? k = a.task? k) (hn : b.now = a.now) :
    (b.sleep k (.time pause)).Awaits pause work es fired (some k) := by
  cases h with
  | @waiting k e hlast hl hp hk =>
      have hnow : a.now = e.time := by
        cases hk with
        | fresh _ _ hnow => exact hnow
        | asleep hs => cases hs.symm.trans ht
        | awake hs => cases hs.symm.trans ht
      have hsleep := Ticks.of_sleep (hb.trans ht) hpos
      rw [hn, hnow] at hsleep
      refine .waiting hlast hl (fun x hx => ?_) hsleep
      rw [sleep_now, hn]
      exact hp x hx

theorem passTo (h : a.Awaits pause work es fired timer) (ht : a.turns = []) (ho : (a.alarms.map (·.task)).Nodup)
    (hd : ∀ x ∈ a.alarms, d ≤ x.due) : (a.passTo d).Awaits pause work es fired timer := by
  have hn : a.now ≤ (a.passTo d).now := by
    rw [passTo_now]
    exact Nat.le_max_left ..
  cases h with
  | still hl hp => exact .still hl fun e he => (hp e he).trans hn
  | waiting hlast hl hp hk => exact .waiting hlast hl (fun e he => (hp e he).trans hn) (hk.passTo ht ho hd)

theorem clock (h : a.Awaits pause work es fired timer) (ht : a.turns = []) (hd : ∀ x ∈ a.alarms, time < x.due) :
    ({ a with now := max a.now time } : Agenda).Awaits pause work es fired timer := by
  have hn : a.now ≤ max a.now time := Nat.le_max_left ..
  cases h with
  | still hl hp => exact .still hl fun e he => (hp e he).trans hn
  | waiting hlast hl hp hk => exact .waiting hlast hl (fun e he => (hp e he).trans hn) (hk.clock ht hd)

/-- When no turn is left, the windows that are over are those that were known to be. -/
theorem ended (h : a.Awaits pause work es fired timer) (ht : a.turns = []) :
    ((lasting pause es).filter fun e => e.time + pause ≤ a.now) = fired := by
  have hkeep : ∀ {fired : List TimedEdit}, (∀ e ∈ fired, e.time + pause ≤ a.now) →
      (fired.filter fun e => e.time + pause ≤ a.now) = fired := fun hp =>
    List.filter_eq_self.mpr fun e he => decide_eq_true (hp e he)
  cases h with
  | still hl hp => rw [hl, hkeep hp]
  | @waiting k e hlast hl hp hk =>
      have hopen : ¬e.time + pause ≤ a.now := Nat.not_le.mpr (hk.now_lt ht)
      rw [hl, List.filter_append, hkeep hp, List.filter_cons_of_neg (by simpa using hopen)]
      simp

end Awaits

end Agenda
namespace LiveSession

/-- A turn is taken, or time passes and no window is lost. -/
theorem Driven.onward_cases {l m n : LiveSession} (h : l.Driven m) (hn : m.Onward n) : m.turn? = some n ∨
    n.session = m.session ∧ m.requestsUntil n = [] ∧ m.now ≤ n.now ∧ ∀ {pause work es fired timer},
      m.agenda.Awaits pause work es fired timer → n.agenda.Awaits pause work es fired timer := by
  cases hn with
  | turn ht => exact .inl ht
  | alarms ht ha =>
      obtain ⟨a, hadvance, rfl⟩ := Option.map_eq_some_iff.mp ha
      have hroster := Agenda.roster_advance? hadvance
      obtain ⟨x, -, rfl, hfirst, -⟩ := Agenda.advance?_some hadvance
      refine .inr ⟨rfl, requestsUntil_same hroster, ?_, fun hw =>
        hw.passTo (turn?_eq_none.mp ht) h.follows.orderly.alarms hfirst⟩
      exact (Nat.le_max_left ..).trans (Agenda.passTo_now ..).ge
  | clock time ht ha =>
      have hlater := Agenda.advance?_eq_none.mp (Option.map_eq_none_iff.mp ha)
      exact .inr ⟨rfl, requestsUntil_same rfl, Nat.le_max_left .., fun hw =>
        hw.clock (turn?_eq_none.mp ht) fun x hx => by simpa using hlater x hx⟩
  | evaluator e => exact .inr ⟨rfl, requestsUntil_same rfl, Nat.le_refl _, fun hw => hw⟩

end LiveSession

end Formwork
