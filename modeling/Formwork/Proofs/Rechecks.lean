import Formwork.Proofs.Outcomes
import Formwork.Proofs.StuckFields

/-!
Structural outcomes along a history: which check the recorded outcome of a field comes from. A validation of all fields
checks them together and then records the outcomes one by one, so an outcome may be out of date when it is recorded.
-/

namespace Formwork

open World Session

namespace World.Transition

variable {t : Transition} {field : String} {o : Outcome}

/-- An open session is to take over a value of the field. -/
def Edits (t : Transition) (field : String) : Prop :=
  t.before.session.closed = false ∧ ∃ v, t.event = .edit field v

/-- All fields are checked, and this is the outcome of the field. -/
def Finds (t : Transition) (field : String) (o : Outcome) : Prop :=
  t.event = .validateAll ∧ ∃ outcomes, t.before.session.outcomes = .ok outcomes ∧ (field, o) ∈ outcomes

/-- The walk that records the outcomes comes to the field. -/
def Records (t : Transition) (field : String) (o : Outcome) : Prop :=
  t.event = .visit ∧ ∃ rest, t.before.visits = .outcome field o :: rest

end World.Transition

/-- The field has got an outcome: from the values that the session was opened with, from an edit or from a validation
of all fields. -/
def Checked (prefilled : List String) (ts : List Transition) (field : String) : Prop :=
  field ∈ prefilled ∨ ∃ t ∈ ts, t.Edits field ∨ ∃ o, t.Records field o

/-- An outcome that was found before an edit of the field was recorded after it: the edit was made while the outcomes
were being recorded, and the field's turn had not come yet. No other outcome was recorded since. -/
def Overtaken (ts : List Transition) (field : String) : Prop :=
  ∃ before found between last after o,
    ts = before ++ found :: (between ++ last :: after) ∧ found.Finds field o ∧ last.Records field o ∧
      (∀ t ∈ between, .outcome field o ∈ t.before.visits) ∧ (∃ t ∈ between, t.Edits field) ∧
        ∀ t ∈ after, ¬t.Edits field ∧ ∀ o, ¬t.Records field o

/-- An outcome that is still to be recorded: it is the one for the value that the field has, unless the field was edited
in the meantime. -/
def Awaits (ts : List Transition) (w : World) (field : String) (o : Outcome) : Prop :=
  ∃ before found between, ts = before ++ found :: between ∧ found.Finds field o ∧
    (∀ t ∈ between, .outcome field o ∈ t.before.visits) ∧
      ((∃ t ∈ between, t.Edits field) ∨
        ∀ c, w.session.slot? field = some c → w.session.validator.validateField field c.value = .ok o)

variable {prefilled : List String} {ts : List Transition} {t : Transition} {w w' : World} {event : Event}
  {fx : List Effect} {a b c : Slot} {field : String} {o : Outcome}

/-! ## One event -/

namespace World

/-- What an event does to the value of a field and its outcome, unless a check breaks off. -/
inductive Rechecks (w : World) (a : Slot) (event : Event) (b : Slot) : Prop
  | edited (v : Value) (he : event = .edit a.field.id v) (hc : w.session.closed = false)
      (ho : w.session.validator.validateField a.field.id b.value = .ok b.structural)
  | recorded (o : Outcome) (rest : List Visit) (he : event = .visit) (hv : w.visits = .outcome a.field.id o :: rest)
      (value : b.value = a.value) (structural : b.structural = o)
  | kept (unedited : ∀ v, event = .edit a.field.id v → w.session.closed)
      (unrecorded : event = .visit → ∀ o rest, w.visits ≠ .outcome a.field.id o :: rest)
      (value : b.value = a.value) (structural : b.structural = a.structural)

theorem Alters.rechecks (h : w.Alters a event fx b)
    (hb : ∀ v, event = .edit a.field.id v → ∀ e, w.session.validator.validateField a.field.id v ≠ .error e) :
    w.Rechecks a event b := by
  have pausing {id : String} {rest : List Visit} {v : Visit} (hv : w.visits = v :: rest) (hn : ∀ o, v ≠ .outcome id o)
      (o : Outcome) (rest' : List Visit) : w.visits ≠ .outcome id o :: rest' := by
    rw [hv]
    exact fun he => hn o (List.cons.inj he).1
  cases h with
  | same _ refused recorded =>
      by_cases hr : event = .visit ∧ ∃ o rest, w.visits = .outcome a.field.id o :: rest
      · obtain ⟨he, o, rest, hv⟩ := hr
        exact .recorded o rest he hv rfl (recorded he o rest hv).symm
      · exact .kept refused (fun he o rest hv => hr ⟨he, o, rest, hv⟩) rfl rfl
  | broken v e _ he => exact absurd he (hb v rfl e)
  | cleared v o hc ho | unadvised v o hc ho | pausedAlone v o hc ho | pausedTogether v o hc ho =>
      exact .edited v rfl hc ho
  | timerFired => exact .kept (by simp) (by simp) rfl rfl
  | flushed rest hv => exact .kept (by simp) (fun _ => pausing hv (by simp)) rfl rfl
  | gathered rest hv => exact .kept (by simp) (fun _ => pausing hv (by simp)) rfl rfl
  | dropped e | committed e | fellBack e =>
      obtain ⟨-, hvalue, -⟩ := forget_same a e.id
      exact .kept (by simp) (by simp) hvalue (forget_structural a e.id)
  | recorded o rest hv => exact .recorded o rest rfl hv rfl rfl

/-- An outcome that is to be recorded was to be recorded before, or has just been found. -/
theorem Step.awaits (hs : w.Step event fx w') (hv : .outcome field o ∈ w'.visits) :
    .outcome field o ∈ w.visits ∨ Transition.Finds ⟨w, event, fx, w'⟩ field o := by
  cases hs with
  | flush | formPauseOver => simp [absorb] at hv
  | validateAll outcomes ho =>
      rcases List.mem_append.mp hv with hv | hv
      · obtain ⟨p, hp, he⟩ := List.mem_map.mp hv
        obtain ⟨rfl, rfl⟩ := Visit.outcome.inj he
        exact .inr ⟨rfl, outcomes, ho, hp⟩
      · exact .inl hv
  | visit v rest hw => exact .inl (hw ▸ List.mem_cons_of_mem v hv)
  | _ => exact .inl hv

/-- An outcome that is to be recorded stays so until it is recorded. -/
theorem Step.carries (hs : w.Step event fx w') (hv : .outcome field o ∈ w.visits) :
    .outcome field o ∈ w'.visits ∨ Transition.Records ⟨w, event, fx, w'⟩ field o := by
  cases hs with
  | flush hn | formPauseOver _ hn => simp [hn] at hv
  | validateAll => exact .inl (List.mem_append_right _ hv)
  | visit v rest hw =>
      rw [hw] at hv
      rcases List.mem_cons.mp hv with rfl | hv
      · exact .inr ⟨rfl, rest, hw⟩
      · exact .inl hv
  | _ => exact .inl hv

end World

/-! ## Histories -/

theorem Checked.mono (h : Checked prefilled ts field) (t : Transition) : Checked prefilled (ts ++ [t]) field :=
  h.imp_right fun ⟨u, hu, h⟩ => ⟨u, List.mem_append_left _ hu, h⟩

theorem Checked.last (h : t.Edits field ∨ ∃ o, t.Records field o) : Checked prefilled (ts ++ [t]) field :=
  .inr ⟨t, List.mem_append_right _ (List.mem_singleton_self t), h⟩

theorem Checked.of_append (h : Checked prefilled (ts ++ [t]) field) (he : ¬t.Edits field)
    (hr : ∀ o, ¬t.Records field o) : Checked prefilled ts field := by
  refine h.imp_right fun ⟨u, hu, hc⟩ => ⟨u, ?_, hc⟩
  refine (List.mem_append.mp hu).resolve_right fun hu => ?_
  obtain rfl := List.mem_singleton.mp hu
  exact hc.elim he fun ⟨o, hc⟩ => hr o hc

theorem Overtaken.append (h : Overtaken ts field) (he : ¬t.Edits field) (hr : ∀ o, ¬t.Records field o) :
    Overtaken (ts ++ [t]) field := by
  obtain ⟨before, found, between, last, after, o, rfl, hf, hl, hv, hedit, hafter⟩ := h
  refine ⟨before, found, between, last, after ++ [t], o, by simp, hf, hl, hv, hedit, fun u hu => ?_⟩
  rcases List.mem_append.mp hu with hu | hu
  · exact hafter u hu
  · exact List.mem_singleton.mp hu ▸ ⟨he, hr⟩

/-- An outcome is recorded for the value that the field has, or an edit has overtaken it. -/
theorem Awaits.recorded (h : Awaits ts w field o) (hr : t.Records field o) :
    Overtaken (ts ++ [t]) field ∨
      ∀ c, w.session.slot? field = some c → w.session.validator.validateField field c.value = .ok o := by
  obtain ⟨before, found, between, rfl, hf, hv, hedit | hsame⟩ := h
  · exact .inl ⟨before, found, between, t, [], o, by simp, hf, hr, hv, hedit, by simp⟩
  · exact .inr hsame

/-- The outcomes of a history, and those that are still to be recorded. -/
structure Recorded (prefilled : List String) (ts : List Transition) (w : World) : Prop where
  checkable : ∀ c ∈ w.session.slots, ∃ o, w.session.validator.validateField c.field.id c.value = .ok o
  awaits : ∀ field o, .outcome field o ∈ w.visits → Awaits ts w field o
  unchecked : ∀ c ∈ w.session.slots, ¬Checked prefilled ts c.field.id → c.value = .null ∧ c.structural = .ok
  checked : ∀ c ∈ w.session.slots, Checked prefilled ts c.field.id →
    w.session.validator.validateField c.field.id c.value = .ok c.structural ∨ Overtaken ts c.field.id
  /-- After a validation of all fields, every field has an outcome as soon as the walk has come to it. -/
  covered : (∃ t ∈ ts, t.event = .validateAll) → ∀ c ∈ w.session.slots,
    (∃ o, .outcome c.field.id o ∈ w.visits) ∨ Checked prefilled ts c.field.id

namespace Recorded

section

variable (h : Recorded prefilled ts w) (hs : w.Step event fx w')

include h hs

theorem awaits_step (hw : w.Sound)
    (hval : ∀ c, w'.session.slot? field = some c → ¬Transition.Edits ⟨w, event, fx, w'⟩ field →
      ∃ a, w.session.slot? field = some a ∧ c.value = a.value)
    (hv : .outcome field o ∈ w'.visits) : Awaits (ts ++ [⟨w, event, fx, w'⟩]) w' field o := by
  rcases hs.awaits hv with hv | ⟨hev, outcomes, ho, hm⟩
  · obtain ⟨before, found, between, rfl, hf, hvs, hsame⟩ := h.awaits field o hv
    refine ⟨before, found, between ++ [⟨w, event, fx, w'⟩], by simp, hf, fun t ht => ?_, ?_⟩
    · rcases List.mem_append.mp ht with ht | ht
      · exact hvs t ht
      · exact List.mem_singleton.mp ht ▸ hv
    · by_cases hedit : Transition.Edits ⟨w, event, fx, w'⟩ field
      · exact .inl ⟨_, List.mem_append_right _ (List.mem_singleton_self _), hedit⟩
      · refine hsame.imp (fun ⟨t, ht, he⟩ => ⟨t, List.mem_append_left _ ht, he⟩) fun hsame c hc => ?_
        obtain ⟨a, ha, hca⟩ := hval c hc hedit
        rw [hs.alike.validator, hca]
        exact hsame a ha
  · refine ⟨ts, ⟨w, event, fx, w'⟩, [], rfl, ⟨hev, outcomes, ho, hm⟩, by simp, .inr fun c hc => ?_⟩
    obtain ⟨schema, hcomp, hids⟩ := hw.compiled
    obtain ⟨a, ha, hca⟩ := hval c hc (by rintro ⟨-, v, he⟩; cases hev.symm.trans he)
    obtain rfl := slot?_id ha
    rw [hs.alike.validator, hca]
    exact outcome_of_mem hcomp hids ho (slot?_mem ha) hm

theorem covered_step (hw : w.Sound) (hall : ∃ t ∈ ts ++ [⟨w, event, fx, w'⟩], t.event = .validateAll)
    (hf : field ∈ w.session.ids) :
    (∃ o, .outcome field o ∈ w'.visits) ∨ Checked prefilled (ts ++ [⟨w, event, fx, w'⟩]) field := by
  obtain ⟨a, ha⟩ := slot?_isSome_iff.mpr hf
  obtain rfl := slot?_id ha
  obtain ⟨t, ht, hev⟩ := hall
  rcases List.mem_append.mp ht with ht | ht
  · rcases h.covered ⟨t, ht, hev⟩ a (slot?_mem ha) with ⟨o, hv⟩ | hc
    · exact (hs.carries hv).imp (fun hv => ⟨o, hv⟩) fun hr => .last (.inr ⟨o, hr⟩)
    · exact .inr (hc.mono _)
  · obtain rfl := List.mem_singleton.mp ht
    obtain ⟨schema, hcomp, hids⟩ := hw.compiled
    obtain rfl : event = .validateAll := hev
    cases hs with
    | validateAll outcomes ho =>
        have hm : a.field.id ∈ outcomes.map (·.1) := (ids_of_outcomes hcomp hids ho).symm ▸ hf
        obtain ⟨p, hp, hid⟩ := List.mem_map.mp hm
        exact .inl ⟨p.2, List.mem_append_left _ (List.mem_map.mpr ⟨p, hp, by rw [hid]⟩)⟩
    | validateNone e he =>
        obtain ⟨outcomes, ho⟩ := outcomes_ok hcomp hids h.checkable
        cases he.symm.trans ho

end

theorem step (h : Recorded prefilled ts w) (hs : w.Step event fx w') (hw : w.Sound)
    (hb : ∀ field ∈ w.session.ids, ∀ v, ¬Transition.BreaksOff ⟨w, event, fx, w'⟩ field v) :
    Recorded prefilled (ts ++ [⟨w, event, fx, w'⟩]) w' := by
  have hval := hs.alike.validator
  have before (b : Slot) (hm : b ∈ w'.session.slots) : ∃ a ∈ w.session.slots, a.field = b.field ∧
      w.Rechecks a event b := by
    obtain ⟨a, ha, hid, halt⟩ := hs.alters_of_after ((hs.sound hw).slot?_of_mem hm)
    exact ⟨a, slot?_mem ha, halt.field_eq.symm,
      halt.rechecks fun v he e hv => hb _ (slot?_isSome_iff.mp ⟨a, hid ▸ ha⟩) v ⟨he, e, hv⟩⟩
  refine ⟨fun b hm => ?_, fun field o hv => ?_, fun b hm hn => ?_, fun b hm hc => ?_, fun hall b hm => ?_⟩
  · obtain ⟨a, ha, hf, hr⟩ := before b hm
    rw [hval, ← hf]
    cases hr with
    | edited _ _ _ ho => exact ⟨_, ho⟩
    | recorded _ _ _ _ value | kept _ _ value => exact value ▸ h.checkable a ha
  · refine h.awaits_step hs hw (fun c hc hedit => ?_) hv
    obtain ⟨a, ha, rfl, halt⟩ := hs.alters_of_after hc
    refine ⟨a, ha, ?_⟩
    cases halt.rechecks fun v he e hv => hb _ (slot?_isSome_iff.mp ⟨a, ha⟩) v ⟨he, e, hv⟩ with
    | edited v he hopen => exact absurd ⟨hopen, v, he⟩ hedit
    | recorded _ _ _ _ value | kept _ _ value => exact value
  · obtain ⟨a, ha, hf, hr⟩ := before b hm
    rw [← hf] at hn
    cases hr with
    | edited v he hopen => exact absurd (.last (.inl ⟨hopen, v, he⟩)) hn
    | recorded o rest he hv => exact absurd (.last (.inr ⟨o, he, rest, hv⟩)) hn
    | kept _ _ value structural =>
        rw [value, structural]
        exact h.unchecked a ha fun hc => hn (hc.mono _)
  · obtain ⟨a, ha, hf, hr⟩ := before b hm
    rw [← hf] at hc
    rw [hval, ← hf]
    cases hr with
    | edited _ _ _ ho => exact .inl ho
    | recorded o rest he hv value structural =>
        rw [value, structural]
        have hrec := (h.awaits _ o (hv ▸ List.mem_cons_self)).recorded (t := ⟨w, event, fx, w'⟩) ⟨he, rest, hv⟩
        exact hrec.symm.imp_left fun hsame => hsame a (hw.slot?_of_mem ha)
    | kept unedited unrecorded value structural =>
        have hedit : ¬Transition.Edits ⟨w, event, fx, w'⟩ a.field.id := by
          rintro ⟨hopen, v, he⟩
          rw [unedited v he] at hopen
          cases hopen
        have hrec (o : Outcome) : ¬Transition.Records ⟨w, event, fx, w'⟩ a.field.id o := by
          rintro ⟨he, rest, hv⟩
          exact unrecorded he o rest hv
        rw [value, structural]
        exact (h.checked a ha (hc.of_append hedit hrec)).imp_right fun ho => ho.append hedit hrec
  · exact h.covered_step hs hw hall (hs.alike.ids ▸ List.mem_map_of_mem hm)

end Recorded
end Formwork
