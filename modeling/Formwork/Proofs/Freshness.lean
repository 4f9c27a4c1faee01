import Formwork.Proofs.InSync
import Formwork.Proofs.Rechecks

/-!
The structural outcome of a field is the one for the value that it has. Only a listener that edits a field while the
outcomes of all fields are being recorded can make a field keep an outcome that was found before the edit.
-/

namespace Formwork

open World Session

/-! ## Values that a session is opened with -/

namespace Session

variable {s t : Session} {v : Validator} {prefilled : List String}

/-- The outcomes in a session to which nothing has happened yet. -/
structure Filled (prefilled : List String) (s : Session) : Prop where
  filled : ∀ c ∈ s.slots, c.field.id ∈ prefilled → s.validator.validateField c.field.id c.value = .ok c.structural
  empty : ∀ c ∈ s.slots, c.field.id ∉ prefilled → c.value = .null ∧ c.structural = .ok

theorem Filled.prefill (h : s.Filled prefilled) {id : String} {value : Value} (ht : s.prefill id value = .ok t) :
    t.Filled (prefilled ++ [id]) := by
  obtain ⟨a, o, ha, ho, rfl⟩ := prefill_ok ht
  obtain rfl := slot?_id ha
  refine ⟨fun c hc hid => ?_, fun c hc hid => ?_⟩
  · rcases mem_putSlot hc with rfl | ⟨hc, hne⟩
    · exact ho
    · exact h.filled c hc ((List.mem_append.mp hid).resolve_right fun he => hne (List.mem_singleton.mp he))
  · rw [List.mem_append, List.mem_singleton, not_or] at hid
    rcases mem_putSlot hc with rfl | ⟨hc, -⟩
    · exact absurd rfl hid.2
    · exact h.empty c hc hid.1

theorem Filled.ofValidator {mode : Mode} {cancelStale : Bool} {initial : List (String × Value)}
    (h : Session.ofValidator v mode cancelStale initial = .ok s) : s.Filled (initial.map Prod.fst) := by
  have key : ∀ (initial : List (String × Value)) (done : List String) (r : Session), r.Filled done →
      initial.foldlM (fun s e => s.prefill e.1 e.2) r = .ok s → s.Filled (done ++ initial.map Prod.fst) := by
    intro initial
    induction initial with
    | nil =>
        intro done r hr he
        rw [List.map_nil, List.append_nil]
        exact Except.ok.inj he ▸ hr
    | cons e es ih =>
        intro done r hr he
        rw [List.foldlM_cons] at he
        obtain ⟨r', hp, he⟩ := bind_ok.mp he
        rw [List.map_cons, List.append_cons]
        exact ih _ r' (hr.prefill hp) he
  refine key initial [] _ ⟨by simp, fun c hc _ => ?_⟩ h
  obtain ⟨f, -, rfl⟩ := List.mem_map.mp hc
  exact ⟨rfl, rfl⟩

theorem Filled.recorded (h : s.Filled prefilled) (ho : s.Opened) : Recorded prefilled [] { session := s } := by
  refine ⟨fun c hc => ?_, by simp, fun c hc hn => h.empty c hc fun hid => hn (.inl hid), fun c hc hck => ?_, by simp⟩
  · by_cases hid : c.field.id ∈ prefilled
    · exact ⟨_, h.filled c hc hid⟩
    · refine ho.sound.blank_checked (slot?_of_nodup ho.nodup hc) ?_
      rw [(h.empty c hc hid).1]
      rfl
  · exact .inl (h.filled c hc (hck.resolve_right (by simp)))

end Session

/-! ## Validations of all fields -/

namespace Slot

/-- The slot with the outcome for the value that it has. -/
def rechecked (v : Validator) (c : Slot) : Slot :=
  match v.validateField c.field.id c.value with
  | .ok o => { c with structural := o }
  | .error _ => c

theorem rechecked_of_ok {v : Validator} {c : Slot} {o : Outcome} (h : v.validateField c.field.id c.value = .ok o) :
    c.rechecked v = { c with structural := o } := by
  simp only [rechecked, h]

end Slot

namespace Session

variable {s : Session} {b c : Slot} {done todo : List Slot}

/-- The slots whose outcome is not the one for their value, with that outcome. -/
def outdated (v : Validator) (slots : List Slot) : List Slot :=
  (slots.filter fun c => (c.rechecked v).structural ≠ c.structural).map (·.rechecked v)

theorem putSlot_between (hn : s.ids.Nodup) (hs : s.slots = done ++ c :: todo) (hb : b.field = c.field) :
    s.putSlot b = { s with slots := done ++ b :: todo } := by
  have others : ∀ d ∈ done ++ todo, d.field.id ≠ b.field.id := by
    rw [ids, hs, List.map_append, List.map_cons, List.nodup_middle, List.nodup_cons, ← List.map_append] at hn
    intro d hd he
    exact hn.1 (List.mem_map.mpr ⟨d, hd, he.trans (congrArg Field.id hb)⟩)
  have same (slots : List Slot) (h : ∀ d ∈ slots, d ∈ done ++ todo) :
      (slots.map fun t => if t.field.id = b.field.id then b else t) = slots := by
    conv_rhs => rw [← List.map_id slots]
    exact List.map_congr_left fun d hd => if_neg (others d (h d hd))
  rw [putSlot, hs, List.map_append, List.map_cons, same done fun d hd => List.mem_append_left _ hd,
    same todo fun d hd => List.mem_append_right _ hd, if_pos (congrArg Field.id hb.symm)]

end Session

namespace LiveSession

variable {l : LiveSession} {done todo : List Slot} {outcomes : List (String × Outcome)}

/-- New slots are in place, and some of them have been shown. -/
def announcing (l : LiveSession) (slots shown : List Slot) : LiveSession :=
  { l with
    session := { l.session with slots }
    sightings := l.sightings ++ shown.flatMap fun c => l.told c.state }

theorem announcing_announcing (l : LiveSession) (slots slots' shown shown' : List Slot) :
    (l.announcing slots shown).announcing slots' shown' = l.announcing slots' (shown ++ shown') := by
  simp [announcing, told, now]

theorem announcing_nothing (l : LiveSession) : l.announcing l.session.slots [] = l := by
  simp [announcing]

/-- One outcome is recorded, and shown if it is a new one. -/
theorem Calm.record_eq (hl : l.Calm) (hn : l.session.ids.Nodup) {c : Slot} (hs : l.session.slots = done ++ c :: todo)
    {o : Outcome} (ho : l.session.validator.validateField c.field.id c.value = .ok o) :
    l.apply (recordOutcome c.field.id o) =
      l.announcing (done ++ c.rechecked l.session.validator :: todo) (outdated l.session.validator [c]) := by
  have hc : l.session.slot? c.field.id = some c := slot?_of_nodup hn (by simp [hs])
  have hr := c.rechecked_of_ok ho
  rw [hl.apply_eq, recordOutcome_some hc]
  by_cases he : o = c.structural
  · have hsame : c.rechecked l.session.validator = c := by rw [hr, he]
    simp [he, outdated, hsame, ← hs, announcing]
  · rw [if_neg he, putSlot_between (b := { c with structural := o }) hn hs rfl]
    simp [outdated, hr, he, Agenda.heed, announcing]

/-- Outcomes are recorded one by one, and every new one is shown. -/
theorem Calm.recordAll_eq (hl : l.Calm) (hn : l.session.ids.Nodup) (hs : l.session.slots = done ++ todo)
    (ho : List.Forall₂ (fun c o => o.1 = c.field.id ∧
      l.session.validator.validateField c.field.id c.value = .ok o.2) todo outcomes) :
    l.recordAll outcomes =
      l.announcing (done ++ todo.map (·.rechecked l.session.validator)) (outdated l.session.validator todo) := by
  generalize hv : l.session.validator = v at ho ⊢
  induction ho generalizing l done with
  | nil =>
      rw [List.map_nil, ← hs]
      exact l.announcing_nothing.symm
  | @cons c o todo outcomes hone _ ih =>
      obtain ⟨hid, ho⟩ := hone
      have hstep := hl.record_eq hn hs (hv ▸ ho)
      rw [hv] at hstep
      have hids : (l.announcing (done ++ c.rechecked v :: todo) (outdated v [c])).session.ids.Nodup := by
        have hf : (c.rechecked v).field = c.field := by rw [c.rechecked_of_ok ho]
        rw [ids, hs, List.map_append, List.map_cons, ← hf] at hn
        rw [announcing, ids, List.map_append, List.map_cons]
        exact hn
      have hcalm : (l.announcing (done ++ c.rechecked v :: todo) (outdated v [c])).Calm := hl
      have hslots : (l.announcing (done ++ c.rechecked v :: todo) (outdated v [c])).session.slots =
          (done ++ [c.rechecked v]) ++ todo := by simp [announcing]
      have hgo : l.recordAll (o :: outcomes) = (l.apply (recordOutcome c.field.id o.2)).recordAll outcomes := by
        rw [← hid]
        rfl
      have houtdated : outdated v (c :: todo) = outdated v [c] ++ outdated v todo := by
        rw [outdated, ← List.singleton_append, List.filter_append, List.map_append]
        rfl
      rw [hgo, hstep, ih hcalm hids hslots hv, announcing_announcing, houtdated, List.map_cons, List.append_assoc, List.singleton_append]

end LiveSession
/-! ## Every history -/

/-- Edits that are made between the walks overtake nothing. -/
theorem not_overtaken {ts : List Transition} {field : String}
    (h : ∀ t ∈ ts, t.Edits field → t.before.visits = []) : ¬Overtaken ts field := by
  rintro ⟨before, found, between, last, after, o, rfl, -, -, hv, ⟨t, ht, hedit⟩, -⟩
  have hm := hv t ht
  rw [h t (by simp [ht]) hedit] at hm
  cases hm

namespace World.Transition

variable {t : Transition} {field : String} {o : Outcome} {v : Value}

/-- Whether the check of an edit does not break off, computed. -/
def passes (t : Transition) : Bool :=
  match t.event with
  | .edit field v => (t.before.session.validator.validateField field v).isOk
  | _ => true

theorem not_breaksOff (h : t.passes) : ¬t.BreaksOff field v := by
  rintro ⟨hev, e, he⟩
  rw [passes, hev] at h
  simp [he, Except.isOk, Except.toBool] at h

/-- Whether an edit is made between the walks, computed. -/
def betweenWalks (t : Transition) : Bool :=
  match t.event with
  | .edit .. => t.before.visits.isEmpty
  | _ => true

theorem Edits.visits (h : t.Edits field) (hb : t.betweenWalks) : t.before.visits = [] := by
  obtain ⟨-, v, hev⟩ := h
  rw [betweenWalks, hev] at hb
  exact List.isEmpty_iff.mp hb

/-- An outcome is shown when it is recorded, if it is a new one. -/
theorem Records.effects (h : t.Records field o) (hs : t.before.Step t.event t.effects t.after) {a : Slot}
    (ha : t.before.session.slot? field = some a) :
    t.effects = if o = a.structural then [] else [.show { a.state with structural := o }] := by
  obtain ⟨hev, rest, hv⟩ := h
  generalize t.effects = fx at hs ⊢
  generalize t.after = w' at hs
  rw [hev] at hs
  cases hs with
  | visit u rest' hv' =>
      rw [hv] at hv'
      obtain rfl := (List.cons.inj hv').1
      rw [Visit.step, recordOutcome_some ha]
      split <;> rfl

end World.Transition

/-- The structural outcomes of a session, in a world that a history reaches. -/
structure Standing (prefilled : List String) (ts : List Transition) (w : World) : Prop where
  /-- A field that was never checked is as it was created. -/
  unchecked : ∀ c ∈ w.session.slots, ¬Checked prefilled ts c.field.id → c.value = .null ∧ c.structural = .ok
  /-- Every other field has the outcome for its value, unless an edit overtook the outcome. -/
  checked : ∀ c ∈ w.session.slots, Checked prefilled ts c.field.id →
    w.session.validator.validateField c.field.id c.value = .ok c.structural ∨ Overtaken ts c.field.id
  covered : (∃ t ∈ ts, t.event = .validateAll) → ∀ c ∈ w.session.slots, (∀ o, .outcome c.field.id o ∉ w.visits) →
    Checked prefilled ts c.field.id
  announced : ∀ t ∈ ts, ∀ field o, t.Records field o → ∀ a, t.before.session.slot? field = some a →
    t.effects = if o = a.structural then [] else [.show { a.state with structural := o }]
  /-- A validation of all fields always returns, and if the listeners only listen it shows what it changes. -/
  validated : ∀ l : LiveSession, l.session = w.session → ∃ outcomes,
    w.session.validator.validate (.record w.session.values) = .ok outcomes ∧ l.validateAll.2 = .ok outcomes ∧
      (l.Calm → l.validateAll.1 = l.announcing (w.session.slots.map (·.rechecked w.session.validator))
        (outdated w.session.validator w.session.slots))

theorem Recorded.validated {prefilled : List String} {ts : List Transition} {w : World} (h : Recorded prefilled ts w)
    (hw : w.Sound) {l : LiveSession} (hl : l.session = w.session) : ∃ outcomes,
      w.session.validator.validate (.record w.session.values) = .ok outcomes ∧ l.validateAll.2 = .ok outcomes ∧
        (l.Calm → l.validateAll.1 = l.announcing (w.session.slots.map (·.rechecked w.session.validator))
          (outdated w.session.validator w.session.slots)) := by
  obtain ⟨schema, hv, hi⟩ := hw.compiled
  obtain ⟨outcomes, ho⟩ := outcomes_ok hv hi h.checkable
  have hrun : l.validateAll = (l.recordAll outcomes, .ok outcomes) := by
    rw [LiveSession.validateAll, hl, ho]
  refine ⟨outcomes, ho, by rw [hrun], fun hc => ?_⟩
  have hn : w.session.ids.Nodup := hi ▸ Validator.ofSchema_nodup hv
  have hslots : l.session.slots = [] ++ l.session.slots := rfl
  rw [hrun, ← hl]
  exact hc.recordAll_eq (hl ▸ hn) hslots (hl ▸ (outcomes_ok_iff hv hi).mp ho)

section

variable {schema : Schema} {v : Validator} (hv : Validator.ofSchema schema = .ok v) {mode : Mode} {cancelStale : Bool}
  {initial : List (String × Value)} {s : Session} (hs : Session.ofValidator v mode cancelStale initial = .ok s)
  {events : List Event} {ts : List Transition} {w : World} (hr : World.run? { session := s } events = some (ts, w))

include hv hs hr

theorem Session.opened_of_run : s.Opened ∧ History ts w ∧ s.Alike w.session := by
  have hopen : s.Opened := ⟨schema, v, mode, cancelStale, initial, hv, hs⟩
  exact ⟨hopen, History.run? (.opened hopen) hr,
    World.run?_induction (P := fun _ w => s.Alike w.session) (fun h hs => h.trans hs.alike) (.refl s) hr⟩

theorem Recorded.of_run (hb : ∀ t ∈ ts, ∀ field ∈ s.ids, ∀ u, ¬t.BreaksOff field u) :
    Recorded (initial.map Prod.fst) ts w := by
  obtain ⟨hopen, -⟩ := opened_of_run hv hs hr
  have hstart : (∀ t ∈ [], ∀ field ∈ s.ids, ∀ u, ¬Transition.BreaksOff t field u) →
      Recorded (initial.map Prod.fst) [] { session := s } := fun _ => (Filled.ofValidator hs).recorded hopen
  have hall := World.run?_induction (P := fun ts w => History ts w ∧ s.Alike w.session ∧
    ((∀ t ∈ ts, ∀ field ∈ s.ids, ∀ u, ¬t.BreaksOff field u) → Recorded (initial.map Prod.fst) ts w))
    (fun ⟨hh, ha, ih⟩ hstep => ⟨.step hh hstep, ha.trans hstep.alike, fun hb =>
      (ih fun t ht => hb t (List.mem_append_left _ ht)).step hstep hh.sound
        (ha.ids ▸ hb _ (List.mem_append_right _ (List.mem_singleton_self _)))⟩) ⟨.opened hopen, .refl s, hstart⟩ hr
  exact hall.2.2 hb

/-- Whatever happens to a session, as long as no check breaks off: every field that has been checked has the outcome
for the value that it has, except for an edit by a listener while the outcomes were being recorded. -/
theorem outcomes_stand (hb : ∀ t ∈ ts, ∀ field ∈ s.ids, ∀ u, ¬t.BreaksOff field u) :
    Standing (initial.map Prod.fst) ts w := by
  have h := Recorded.of_run hv hs hr hb
  obtain ⟨-, hh, -⟩ := opened_of_run hv hs hr
  refine ⟨h.unchecked, h.checked, fun hall c hc hn => ?_, fun t ht field o hr a ha => ?_,
    fun l hl => h.validated hh.sound hl⟩
  · exact (h.covered hall c hc).resolve_left fun ⟨o, hv⟩ => hn o hv
  · exact hr.effects (hh.mem_step ht).2 ha

end

/-! ## A form whose fields are required -/

namespace Sample

def trip : Session where
  validator :=
    { schema :=
        { id := "trip", title := .text "Trip"
          fields := [{ id := "name", type := .text, label := .text "Name", required := true },
            { id := "city", type := .text, label := .text "City", required := true }] }
      checks := [{ field := { id := "name", type := .text, label := .text "Name", required := true } },
        { field := { id := "city", type := .text, label := .text "City", required := true } }] }
  slots := [{ field := { id := "name", type := .text, label := .text "Name", required := true } },
    { field := { id := "city", type := .text, label := .text "City", required := true } }]

/-- A city is entered while the outcome of the name is shown. -/
def tripEvents : List Event := [.validateAll, .visit, .edit "city" (.text "Rome"), .visit]

theorem tripEvents_possible : (World.run? { session := trip } tripEvents).isSome := by decide +kernel

def tripRun : List Transition × World := (World.run? { session := trip } tripEvents).get tripEvents_possible

/-- A listener enters a city when it sees that there is no name yet. -/
def guided : LiveSession where
  session := trip
  evaluator _ _ := { pause := .none, answer := .findings [] }
  listeners := [{
    name := "guide"
    respond := fun state =>
      if state.field.id = "name" ∧ state.phase = .idle then [("city", .text "Rome")] else [] }]

end Sample

theorem outcomes_stand_trip :
    Sample.tripRun.2.session.slots.map (·.structural.code) = [some "REQUIRED", some "REQUIRED"] ∧
      Standing [] Sample.tripRun.1 Sample.tripRun.2 := by
  have hv : Validator.ofSchema Sample.trip.schema = .ok Sample.trip.validator := rfl
  have hs : Session.ofValidator Sample.trip.validator .field true [] = .ok Sample.trip := rfl
  exact ⟨by decide +kernel, outcomes_stand hv hs (run?_get Sample.tripEvents_possible) fun t ht _ _ _ =>
    Transition.not_breaksOff (List.all_eq_true.mp (by decide +kernel) t ht)⟩

/-- A city that a listener enters while all fields are validated keeps the outcome of the field without a city. -/
theorem entered_city_required : ∃ c ∈ Sample.guided.validateAll.1.session.slots, c.value.isBlank = false ∧
    Sample.guided.session.validator.validateField c.field.id c.value ≠ .ok c.structural := by
  have hstale : Sample.guided.validateAll.1.session.slots.any fun c => !c.value.isBlank &&
      (Sample.guided.session.validator.validateField c.field.id c.value).toOption ≠ some c.structural := by
    decide +kernel
  obtain ⟨c, hc, h⟩ := List.any_eq_true.mp hstale
  rw [Bool.and_eq_true, Bool.not_eq_true', decide_eq_true_eq] at h
  exact ⟨c, hc, h.1, fun he => h.2 (congrArg Except.toOption he)⟩

end Formwork
