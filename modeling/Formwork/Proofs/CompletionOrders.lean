import Formwork.Proofs.Blockers
import Mathlib.Data.List.Induction

/-!
Evaluations of a batch that end in any order. They start one by one, and what each of them answers is kept at its place;
when all have ended, the answers go to the fields by their places. A field gets what its own evaluation answered, in
whatever order they end, and the order that the pauses of evaluations give is one of those.
-/

namespace Formwork

/-- A batch under way. -/
structure Batch where
  /-- The fields that are evaluated, with their values. -/
  asked : List (Field × Value)
  started : Nat := 0
  /-- The answers so far, by place. -/
  answers : List (Option Answer)

namespace Batch

/-- An evaluation starts, or it ends with an answer. -/
inductive Event
  | start (place : Nat)
  | finish (place : Nat) (answer : Answer)

/-- What a form has evaluated: its fields that have a value. -/
def asking (s : Schema) (values : Value) : List (Field × Value) :=
  (s.valued values).map fun f => (f, values.entry f.id)

def opened (s : Schema) (values : Value) : Batch where
  asked := asking s values
  answers := (asking s values).map fun _ => none

/-- Evaluations start in order, and one that has started ends once. -/
def next? (b : Batch) : Event → Option Batch
  | .start place =>
      if place = b.started ∧ place < b.asked.length then some { b with started := place + 1 } else none
  | .finish place answer =>
      if place < b.started ∧ b.answers[place]?.any Option.isNone then
        some { b with answers := b.answers.set place (some answer) }
      else none

def run? (b : Batch) (events : List Event) : Option Batch := events.foldlM next? b

/-- The values that the evaluator is called with, by field. -/
def calls (asked : List (Field × Value)) (events : List Event) : List (String × Value) :=
  events.filterMap fun
    | .start place => asked[place]?.map fun e => (e.1.id, e.2)
    | .finish .. => none

/-- The answer with which the evaluation of a field ends. -/
def ownAnswer (asked : List (Field × Value)) (events : List Event) (id : String) : Option Answer :=
  events.findSome? fun
    | .start _ => none
    | .finish place answer => if asked[place]?.any fun e => e.1.id = id then some answer else none

/-- Puts the answers to the fields by their places, unless an evaluation was cancelled. -/
def collect (s : Schema) (asked : List (Field × Value)) (answers : List Answer) : Except Fault FindingMap :=
  if answers.any Evaluation.isCancelled then .error .cancelled
  else .ok ((asked.zip answers).foldl (fun m e => m.put e.1.1.id (Evaluation.found e.2))
    (s.fields.foldl (fun m f => m.put f.id []) []))

/-! ## What a run keeps -/

variable {b c : Batch} {events : List Event} {event : Event}

/-- What is known of a batch after some events. -/
structure Tells (asks : List (Field × Value)) (b : Batch) (events : List Event) : Prop where
  asked : b.asked = asks
  size : b.answers.length = asks.length
  started : b.started ≤ asks.length
  /-- The evaluations that have started are the first ones, and each of them started once. -/
  starts : (events.filterMap fun | .start place => some place | .finish .. => none) = List.range b.started
  finished : ∀ place answer, Event.finish place answer ∈ events → place < b.started
  answered : ∀ place answer, b.answers[place]? = some (some answer) ↔ Event.finish place answer ∈ events

theorem opened_tells (s : Schema) (values : Value) : (opened s values).Tells (asking s values) [] where
  asked := rfl
  size := by simp [opened]
  started := Nat.zero_le _
  starts := rfl
  finished := nofun
  answered place answer := by
    have hnone : (opened s values).answers[place]? ≠ some (some answer) := by
      rw [opened, List.getElem?_map]
      cases (asking s values)[place]? <;> simp
    simp [hnone]

theorem Tells.next {asks : List (Field × Value)} (h : b.Tells asks events) (hn : b.next? event = some c) :
    c.Tells asks (events ++ [event]) := by
  cases event with
  | start place =>
      obtain ⟨⟨rfl, hlt⟩, hc⟩ := Option.ite_none_right_eq_some.mp hn
      cases hc
      exact
        { h with
          started := h.asked ▸ hlt
          starts := by rw [List.filterMap_append, h.starts]; exact (List.range_succ ..).symm
          finished := fun i a hm => by
            have hm : Event.finish i a ∈ events := by simpa using hm
            exact Nat.lt_succ_of_lt (h.finished i a hm)
          answered := fun i a => by simpa using h.answered i a }
  | finish place answer =>
      obtain ⟨⟨hlt, hnone⟩, hc⟩ := Option.ite_none_right_eq_some.mp hn
      cases hc
      obtain ⟨r, hr, hnone⟩ := (Option.any_eq_true _ _).mp hnone
      obtain rfl := Option.isNone_iff_eq_none.mp hnone
      refine
        { h with
          size := by rw [List.length_set, h.size]
          starts := by rw [List.filterMap_append, h.starts]; exact List.append_nil _
          finished := fun i a hm => ?_
          answered := fun i a => ?_ }
      · rcases List.mem_append.mp hm with hm | hm
        · exact h.finished i a hm
        · cases List.mem_singleton.mp hm
          exact hlt
      · have hplace : place < b.answers.length := (List.getElem?_eq_some_iff.mp hr).1
        by_cases heq : place = i
        · subst heq
          -- Nothing ended at this place before.
          have hfirst : Event.finish place a ∉ events := fun hm => by
            cases hr.symm.trans ((h.answered place a).mpr hm)
          simp [hplace, hfirst, eq_comm]
        · simp [List.getElem?_set_ne heq, h.answered i a, Ne.symm heq]

theorem run_tells {s : Schema} {values : Value} (h : (opened s values).run? events = some b) :
    b.Tells (asking s values) events := by
  induction events using List.reverseRecOn generalizing b with
  | nil =>
      cases h
      exact opened_tells s values
  | append_singleton events event ih =>
      rw [run?, List.foldlM_append] at h
      obtain ⟨before, hbefore, h⟩ := Option.bind_eq_some_iff.mp h
      obtain ⟨after, hafter, h⟩ := Option.bind_eq_some_iff.mp h
      cases h
      exact (ih hbefore).next hafter

/-! ## What is found -/

variable {s : Schema} {values : Value} {asks : List (Field × Value)} {answers : List Answer}

theorem asking_nodup (hn : s.ids.Nodup) : ((asking s values).map fun e => e.1.id).Nodup := by
  rw [asking, List.map_map]
  exact hn.sublist (List.filter_sublist.map _)

theorem filterMap_range {α β : Type} (l : List α) (g : α → β) :
    ((List.range l.length).filterMap fun i => l[i]?.map g) = l.map g := by
  induction l using List.reverseRecOn with
  | nil => rfl
  | append_singleton l a ih =>
      have hbefore : ((List.range l.length).filterMap fun i => (l ++ [a])[i]?.map g) = l.map g := by
        rw [← ih]
        refine List.filterMap_congr fun i hi => ?_
        rw [List.getElem?_append_left (List.mem_range.mp hi)]
      rw [List.length_append, List.length_singleton, List.range_succ, List.filterMap_append, hbefore]
      simp

/-- A run that has ended called the evaluator for every field with a value, once and in order. -/
theorem Tells.calls (h : b.Tells asks events) (hall : b.answers = answers.map some) :
    calls asks events = asks.map fun e => (e.1.id, e.2) := by
  have hstarted : b.started = asks.length := by
    refine Nat.le_antisymm h.started (Nat.le_of_not_lt fun hlt => ?_)
    have hlen : answers.length = asks.length := by simpa [hall] using h.size
    have hlast := (h.answered b.started answers[b.started]).mp (by simp [hall, hlen, hlt])
    exact absurd (h.finished _ _ hlast) (Nat.lt_irrefl _)
  have hcalls : Batch.calls asks events = (events.filterMap fun
      | .start place => some place
      | .finish .. => none).filterMap fun place => asks[place]?.map fun e => (e.1.id, e.2) := by
    rw [List.filterMap_filterMap, Batch.calls]
    refine List.filterMap_congr fun event _ => ?_
    cases event <;> rfl
  rw [hcalls, h.starts, hstarted, filterMap_range]

/-- The answer at a place is the own answer of the field there. -/
theorem Tells.ownAnswer (h : b.Tells asks events) (hall : b.answers = answers.map some)
    (hn : (asks.map fun e => e.1.id).Nodup) {place : Nat} {e : Field × Value} {a : Answer} (he : asks[place]? = some e)
    (ha : answers[place]? = some a) : ownAnswer asks events e.1.id = some a := by
  have hevent : Event.finish place a ∈ events := (h.answered place a).mp (by simp [hall, ha])
  have hsame (i : Nat) (hi : asks[i]?.any fun d => d.1.id = e.1.id) : i = place := by
    obtain ⟨d, hd, hid⟩ := (Option.any_eq_true _ _).mp hi
    have hlt : i < (asks.map fun e => e.1.id).length := by
      rw [List.length_map]
      exact (List.getElem?_eq_some_iff.mp hd).1
    refine (List.getElem?_inj hlt hn).mp ?_
    rw [List.getElem?_map, List.getElem?_map, hd, he]
    simpa using hid
  cases hown : Batch.ownAnswer asks events e.1.id with
  | none =>
      have hnone := List.findSome?_eq_none_iff.mp hown _ hevent
      simp [he] at hnone
  | some a' =>
      obtain ⟨event, hm, hgives⟩ := List.exists_of_findSome?_eq_some hown
      cases event with
      | start => cases hgives
      | finish i answer =>
          obtain ⟨hi, hanswer⟩ := Option.ite_none_right_eq_some.mp hgives
          obtain rfl := hsame i hi
          have hkept := (h.answered i answer).mpr hm
          rw [hall, List.getElem?_map, ha] at hkept
          rw [← hanswer]
          exact (Option.some.inj hkept).symm

/-- No evaluation of a field without a value ends. -/
theorem ownAnswer_blank (hn : s.ids.Nodup) {f : Field} (hf : f ∈ s.fields) (hb : (values.entry f.id).isBlank = true) :
    ownAnswer (asking s values) events f.id = none := by
  refine List.findSome?_eq_none_iff.mpr fun event _ => ?_
  cases event with
  | start => rfl
  | finish place answer =>
      refine if_neg fun hany => ?_
      obtain ⟨e, he, hid⟩ := (Option.any_eq_true _ _).mp hany
      obtain ⟨d, hd, rfl⟩ := List.mem_map.mp (List.mem_of_getElem? he)
      obtain ⟨hd, hvalued⟩ := List.mem_filter.mp hd
      obtain rfl : d = f := List.inj_on_of_nodup_map hn hd hf (of_decide_eq_true hid)
      simp [hb] at hvalued

/-- What a field gets: nothing if it has no value, and else what its own evaluation found. -/
def entryOf (value : Value) (own : Option Answer) : List Finding :=
  if value.isBlank then [] else own.elim [] Evaluation.found

/-- Answers to fields of different names depend on the name only. -/
theorem exists_eq_map {fields : List Field} (hn : (fields.map (·.id)).Nodup) (hlen : answers.length = fields.length) :
    ∃ g : String → Answer, answers = fields.map fun f => g f.id := by
  induction fields generalizing answers with
  | nil => exact ⟨fun _ => .cancelled, List.length_eq_zero_iff.mp hlen⟩
  | cons f fields ih =>
      obtain ⟨hf, hn⟩ := List.nodup_cons.mp hn
      cases answers with
      | nil => cases hlen
      | cons a answers =>
          obtain ⟨g, rfl⟩ := ih hn (Nat.succ.inj hlen)
          refine ⟨Function.update g f.id a, ?_⟩
          rw [List.map_cons, Function.update_self]
          refine congrArg _ (List.map_congr_left fun d hd => ?_)
          rw [Function.update_of_ne fun heq => hf (List.mem_map.mpr ⟨d, hd, heq⟩)]

/-- Answers by place, as those of an evaluator, are put to the fields like the findings of a batch. -/
theorem collect_map (hn : s.ids.Nodup) (g : String → Answer)
    (hc : ((s.valued values).map fun f => g f.id).any Evaluation.isCancelled = false) :
    collect s (asking s values) ((s.valued values).map fun f => g f.id) =
      .ok (s.fields.map fun f => (f.id, if (values.entry f.id).isBlank then [] else Evaluation.found (g f.id))) := by
  have hbatch := @Schema.findingsOf_eq s (fun f _ => ⟨.none, g f.id, false⟩) values hn
  rw [collect, hc, asking, List.zip_map', List.foldl_map]
  rw [Schema.findingsOf, List.foldl_map] at hbatch
  exact congrArg Except.ok hbatch

/-- What comes of a batch: every field with a value is evaluated once and no other is, and the entry of a field is told by
its own value and the own answer of its evaluation. -/
structure Isolated (s : Schema) (values : Value) (events : List Event) (result : Except Fault FindingMap) : Prop where
  calls : calls (asking s values) events = (s.valued values).map fun f => (f.id, values.entry f.id)
  ends : ∀ f ∈ s.fields, (ownAnswer (asking s values) events f.id).isSome = !(values.entry f.id).isBlank
  findings : result = .ok (s.fields.map fun f =>
    (f.id, entryOf (values.entry f.id) (ownAnswer (asking s values) events f.id)))

/-- The fields are evaluated apart, in whatever order the evaluations end. -/
theorem run_isolated (hn : s.ids.Nodup) (hrun : (opened s values).run? events = some b)
    (hall : b.answers = answers.map some) (hc : answers.any Evaluation.isCancelled = false) :
    Isolated s values events (collect s (asking s values) answers) := by
  have h := run_tells hrun
  have hlen : answers.length = (s.valued values).length := by simpa [hall, asking] using h.size
  have hvalued : ((s.valued values).map (·.id)).Nodup := hn.sublist (List.filter_sublist.map _)
  obtain ⟨g, rfl⟩ := exists_eq_map hvalued hlen
  have hown : ∀ f ∈ s.fields, ownAnswer (asking s values) events f.id =
      if (values.entry f.id).isBlank then none else some (g f.id) := by
    intro f hf
    cases hb : (values.entry f.id).isBlank with
    | true => exact ownAnswer_blank hn hf hb
    | false =>
        have hmem : f ∈ s.valued values := List.mem_filter.mpr ⟨hf, by simp [hb]⟩
        obtain ⟨place, hplace⟩ := List.mem_iff_getElem?.mp hmem
        have hask : (asking s values)[place]? = some (f, values.entry f.id) := by simp [asking, hplace]
        exact h.ownAnswer hall (asking_nodup hn) hask (by simp [hplace])
  refine ⟨?_, fun f hf => ?_, ?_⟩
  · rw [h.calls hall, asking, List.map_map]
    rfl
  · rw [hown f hf]
    cases (values.entry f.id).isBlank <;> rfl
  · rw [collect_map hn g hc]
    refine congrArg _ (List.map_congr_left fun f hf => ?_)
    rw [hown f hf, entryOf]
    cases (values.entry f.id).isBlank <;> rfl

/-! ## The order that pauses give -/

/-- An evaluation ends with the answer of its plan. -/
def ending (e : Evaluation × Nat) : Event := .finish e.2 e.1.plan.answer

/-- An evaluation starts, and it ends at once if it waits for nothing. -/
def beginning (e : Evaluation × Nat) : List Event :=
  .start e.2 :: if e.1.plan.pause = .none then [ending e] else []

/-- The evaluations that wait for a time, the shortest wait first. -/
def timed (es : List (Evaluation × Nat)) : List (Nat × Evaluation × Nat) :=
  (es.filterMap fun e => e.1.wait?.map fun w => (w, e)).mergeSort fun a b => a.1 ≤ b.1

/-- The evaluations that wait for something, in the order in which they end. -/
def waiting (es : List (Evaluation × Nat)) : List (Evaluation × Nat) :=
  (es.filter fun e => e.1.plan.pause = .turn) ++ (timed es).map (·.2)

/-- What happens in a batch, in the order that the pauses give. -/
def schedule (es : List Evaluation) : List Event := es.zipIdx.flatMap beginning ++ (waiting es.zipIdx).map ending

theorem waiting_perm (es : List (Evaluation × Nat)) :
    (waiting es).Perm (es.filter fun e => e.1.plan.pause ≠ .none) := by
  have htimed : ((timed es).map (·.2)).Perm (es.filter fun e => e.1.wait?.isSome) := by
    have hfilter : (es.filterMap fun e => e.1.wait?.map fun w => (w, e)).map (·.2) =
        es.filter fun e => e.1.wait?.isSome := by
      induction es with
      | nil => rfl
      | cons e es ih => cases hw : e.1.wait? <;> simp [hw, ih]
    exact hfilter ▸ (List.mergeSort_perm _ _).map _
  have hsplit := List.filter_append_perm (fun e : Evaluation × Nat => e.1.plan.pause = .turn)
    (es.filter fun e => e.1.plan.pause ≠ .none)
  refine ((List.Perm.refl _).append htimed).trans (List.Perm.trans (List.Perm.of_eq ?_) hsplit)
  rw [List.filter_filter, List.filter_filter]
  congr 1 <;> refine List.filter_congr fun e _ => ?_
  · cases e.1.plan.pause <;> rfl
  · rw [Evaluation.wait?]
    cases e.1.plan.pause <;> rfl

theorem run?_append (b : Batch) (events more : List Event) :
    b.run? (events ++ more) = (b.run? events).bind fun c => c.run? more := List.foldlM_append

/-- The answer of an evaluation that ends at once. -/
def early (e : Evaluation) : Option Answer := if e.plan.pause = .none then some e.plan.answer else none

theorem run_beginning {before after : List Evaluation} {e : Evaluation} (hasks : before.length < asks.length) :
    run? ⟨asks, before.length, before.map early ++ none :: after.map fun _ => none⟩ (beginning (e, before.length)) =
      some ⟨asks, before.length + 1, (before ++ [e]).map early ++ after.map fun _ => none⟩ := by
  unfold beginning
  by_cases h : e.plan.pause = .none
  · simp [run?, next?, hasks, h, ending, early]
  · simp [run?, next?, hasks, h, early]

theorem run_beginnings (before after : List Evaluation) (hasks : asks.length = before.length + after.length) :
    run? ⟨asks, before.length, before.map early ++ after.map fun _ => none⟩
        ((after.zipIdx before.length).flatMap beginning) =
      some ⟨asks, asks.length, (before ++ after).map early⟩ := by
  induction after generalizing before with
  | nil => simp [run?, hasks]
  | cons e after ih =>
      rw [List.zipIdx_cons, List.flatMap_cons, run?_append, List.map_cons, run_beginning (by simp [hasks])]
      have hnext := ih (before ++ [e]) (by simp [hasks]; omega)
      simpa using hnext

theorem run_endings {es : List (Evaluation × Nat)} (hn : (es.map (·.2)).Nodup)
    (h : ∀ e ∈ es, e.2 < b.started ∧ b.answers[e.2]? = some none) :
    ∃ c, b.run? (es.map ending) = some c ∧ (∀ e ∈ es, c.answers[e.2]? = some (some e.1.plan.answer)) ∧
      ∀ place ∉ es.map (·.2), c.answers[place]? = b.answers[place]? := by
  induction es generalizing b with
  | nil => exact ⟨b, rfl, fun e he => absurd he List.not_mem_nil, fun _ _ => rfl⟩
  | cons e es ih =>
      obtain ⟨hfresh, hn⟩ := List.nodup_cons.mp hn
      obtain ⟨⟨hlt, hnone⟩, h⟩ := List.forall_mem_cons.mp h
      have hnext : b.next? (ending e) = some { b with answers := b.answers.set e.2 (some e.1.plan.answer) } :=
        if_pos ⟨hlt, by simp [hnone]⟩
      have hother : ∀ place, place ≠ e.2 → (b.answers.set e.2 (some e.1.plan.answer))[place]? = b.answers[place]? :=
        fun place hne => List.getElem?_set_ne (Ne.symm hne)
      have hne : ∀ d ∈ es, d.2 ≠ e.2 := fun d hd heq => hfresh (List.mem_map.mpr ⟨d, hd, heq⟩)
      obtain ⟨c, hrun, hends, hkept⟩ := ih (b := { b with answers := b.answers.set e.2 (some e.1.plan.answer) }) hn
        fun d hd => ⟨(h d hd).1, (hother d.2 (hne d hd)).trans (h d hd).2⟩
      refine ⟨c, ?_, List.forall_mem_cons.mpr ⟨?_, hends⟩, fun place hp => ?_⟩
      · rw [List.map_cons, run?, List.foldlM_cons, hnext]
        exact hrun
      · have hlen : e.2 < b.answers.length := (List.getElem?_eq_some_iff.mp hnone).1
        rw [hkept e.2 hfresh]
        exact List.getElem?_set_self hlen
      · rw [List.map_cons, List.mem_cons, not_or] at hp
        exact (hkept place hp.2).trans (hother place hp.1)

/-- The order of the pauses is one in which all evaluations end, each with the answer of its plan. -/
theorem run_schedule {es : List Evaluation} (hasks : asks.length = es.length) :
    ∃ c, run? ⟨asks, 0, es.map fun _ => none⟩ (schedule es) = some c ∧
      c.answers = es.map fun e => some e.plan.answer := by
  have hstart : run? ⟨asks, 0, es.map fun _ => none⟩ (es.zipIdx.flatMap beginning) =
      some ⟨asks, asks.length, es.map early⟩ := run_beginnings [] es (by simp [hasks])
  have hplaces : ((waiting es.zipIdx).map (·.2)).Nodup := by
    refine ((waiting_perm _).map _).nodup_iff.mpr (List.Nodup.sublist (List.filter_sublist.map _) ?_)
    rw [List.zipIdx_map_snd]
    exact List.nodup_range'
  have hmem (e : Evaluation) (i : Nat) :
      (e, i) ∈ waiting es.zipIdx ↔ es[i]? = some e ∧ e.plan.pause ≠ .none := by
    rw [(waiting_perm _).mem_iff, List.mem_filter, List.mk_mem_zipIdx_iff_getElem?]
    simp
  obtain ⟨c, hrun, hends, hkept⟩ := run_endings (b := ⟨asks, asks.length, es.map early⟩) hplaces fun ⟨e, i⟩ he => by
    obtain ⟨hi, hpause⟩ := (hmem e i).mp he
    exact ⟨hasks ▸ (List.getElem?_eq_some_iff.mp hi).1, by simp [hi, early, hpause]⟩
  refine ⟨c, by rw [schedule, run?_append, hstart]; exact hrun, List.ext_getElem? fun i => ?_⟩
  by_cases hplace : i ∈ (waiting es.zipIdx).map (·.2)
  · obtain ⟨⟨e, i⟩, he, rfl⟩ := List.mem_map.mp hplace
    simp [hends _ he, ((hmem e i).mp he).1]
  · rw [hkept i hplace]
    cases hi : es[i]? with
    | none => simp [hi]
    | some e =>
        have hpause : e.plan.pause = .none := by
          by_contra h
          exact hplace (List.mem_map.mpr ⟨(e, i), (hmem e i).mpr ⟨hi, h⟩, rfl⟩)
        simp [hi, early, hpause]

/-! ## The record of a batch -/

/-- What the record of a batch says about an event. -/
def told (es : List Evaluation) : Event → Option (Stage × String × Value)
  | .start place => es[place]?.map fun e => (.start, e.field.id, e.value)
  | .finish place answer => es[place]?.map fun e => (answer.endStage, e.field.id, e.value)

def recordOf (marks : List Mark) : List (Stage × String × Value) := marks.map fun m => (m.stage, m.field, m.value)

theorem recordOf_append (marks more : List Mark) : recordOf (marks ++ more) = recordOf marks ++ recordOf more :=
  List.map_append

theorem recordOf_mark {e : Evaluation} (h : e.plan.recorded) (time : Nat) (stage : Stage) :
    recordOf (e.mark time stage) = [(stage, e.field.id, e.value)] := by
  rw [Evaluation.mark, if_pos h]
  rfl

theorem told_ending {es : List Evaluation} {e : Evaluation × Nat} (he : es[e.2]? = some e.1) :
    told es (ending e) = some (e.1.plan.answer.endStage, e.1.field.id, e.1.value) := by
  rw [ending, told, he, Option.map_some]

theorem told_beginning {es : List Evaluation} {e : Evaluation × Nat} (he : es[e.2]? = some e.1)
    (hr : e.1.plan.recorded) (now : Nat) :
    (beginning e).filterMap (told es) = recordOf (Evaluation.startMarks now e.1) := by
  have hstart : told es (.start e.2) = some (.start, e.1.field.id, e.1.value) := by rw [told, he, Option.map_some]
  rw [Evaluation.startMarks, recordOf_append, recordOf_mark hr, beginning, List.filterMap_cons_some hstart]
  by_cases h : e.1.plan.pause = .none
  · rw [if_pos h, if_pos h, recordOf_mark hr, List.filterMap_cons_some (told_ending he)]
    rfl
  · rw [if_neg h, if_neg h]
    rfl

/-- Evaluations end in the record as they do in the batch, at whatever times. -/
theorem told_endings {es : List Evaluation} (hr : ∀ e ∈ es, e.plan.recorded) {α : Type} {ends : List α}
    (place : α → Evaluation × Nat) (time : α → Nat) (he : ∀ x ∈ ends, es[(place x).2]? = some (place x).1) :
    (ends.map fun x => ending (place x)).filterMap (told es) =
      recordOf (ends.flatMap fun x => (place x).1.mark (time x) (place x).1.plan.answer.endStage) := by
  induction ends with
  | nil => rfl
  | cons x ends ih =>
      obtain ⟨hplace, he⟩ := List.forall_mem_cons.mp he
      rw [List.map_cons, List.filterMap_cons_some (told_ending hplace), ih he, List.flatMap_cons, recordOf_append,
        recordOf_mark (hr _ (List.mem_of_getElem? hplace))]
      rfl

theorem timed_zipIdx (es : List Evaluation) :
    Evaluation.timed es = (timed es.zipIdx).map fun e => (e.1, e.2.1) := by
  have hwaits : (es.filterMap fun e => e.wait?.map fun w => (w, e)) =
      (es.zipIdx.filterMap fun e => e.1.wait?.map fun w => (w, e)).map fun e => (e.1, e.2.1) := by
    have hes : es.zipIdx.map (·.1) = es := List.zipIdx_map_fst ..
    conv_lhs => rw [← hes, List.filterMap_map]
    rw [List.map_filterMap]
    refine List.filterMap_congr fun e _ => ?_
    simp only [Function.comp_apply, Option.map_map]
    rfl
  rw [Evaluation.timed, hwaits, timed]
  refine Eq.symm (List.map_mergeSort ?_)
  exact fun _ _ _ _ => rfl

/-- The record of a batch tells its events in the order that the pauses give. -/
theorem recordOf_marks (now : Nat) {es : List Evaluation} (hr : ∀ e ∈ es, e.plan.recorded) :
    recordOf (Evaluation.marks now es) = (schedule es).filterMap (told es) := by
  have hes : es.zipIdx.map (·.1) = es := List.zipIdx_map_fst ..
  have hplace : ∀ e ∈ es.zipIdx, es[e.2]? = some e.1 := fun e he => List.mem_zipIdx_iff_getElem?.mp he
  have hwaiting : ∀ e ∈ waiting es.zipIdx, es[e.2]? = some e.1 := fun e he =>
    hplace e (List.mem_filter.mp ((waiting_perm _).mem_iff.mp he)).1
  have hstarts : recordOf (es.flatMap (Evaluation.startMarks now)) =
      (es.zipIdx.flatMap beginning).filterMap (told es) := by
    conv_lhs => rw [← hes, List.flatMap_map, recordOf, List.map_flatMap]
    rw [List.filterMap_flatMap]
    refine List.flatMap_congr fun e he => ?_
    exact (told_beginning (hplace e he) (hr _ (List.mem_of_getElem? (hplace e he))) now).symm
  have hturns : recordOf ((es.filter fun e => e.plan.pause = .turn).flatMap fun e =>
      e.mark now e.plan.answer.endStage) =
      ((es.zipIdx.filter fun e => e.1.plan.pause = .turn).map ending).filterMap (told es) := by
    conv_lhs => rw [← hes, List.filter_map, List.flatMap_map]
    exact (told_endings hr id (fun _ => now) fun e he => hwaiting e (List.mem_append_left _ he)).symm
  have htimed : recordOf ((Evaluation.timed es).flatMap fun e => e.2.mark (now + e.1) e.2.plan.answer.endStage) =
      (((timed es.zipIdx).map (·.2)).map ending).filterMap (told es) := by
    rw [timed_zipIdx, List.flatMap_map, List.map_map]
    exact (told_endings hr (fun e : Nat × Evaluation × Nat => e.2) (fun e => now + e.1) fun e he =>
      hwaiting e.2 (List.mem_append_right _ (List.mem_map_of_mem he))).symm
  rw [Evaluation.marks, recordOf_append, recordOf_append, hstarts, hturns, htimed, schedule, waiting, List.map_append,
    List.filterMap_append, List.filterMap_append, List.append_assoc]

/-! ## All fields of a form -/

/-- The evaluation of a form is a batch with these events: it ends with what is collected from the answers of the
evaluator, and if the evaluator leaves a record, that tells the events. -/
structure InOrder (s : Schema) (values : Value) (evaluator : Evaluator) (now : Nat) (events : List Event) : Prop where
  run : ∃ b, (opened s values).run? events = some b ∧
    b.answers = ((s.valued values).map fun f => (evaluator f (values.entry f.id)).answer).map some
  result : (s.evaluate evaluator values now).findings =
    collect s (asking s values) ((s.valued values).map fun f => (evaluator f (values.entry f.id)).answer)
  record : (∀ f v, (evaluator f v).recorded) → recordOf (s.evaluate evaluator values now).marks =
    events.filterMap (told ((s.valued values).map (Schema.evaluationOf evaluator values)))

/-- The evaluation of a form is a batch in the order that the pauses of its evaluations give. -/
theorem evaluate_inOrder (data : Entries) (evaluator : Evaluator) (now : Nat)
    (hc : ((s.valued (.map data)).map fun f => (evaluator f (Value.entry (.map data) f.id)).answer).any
      Evaluation.isCancelled = false) :
    InOrder s (.map data) evaluator now
      (schedule ((s.valued (.map data)).map (Schema.evaluationOf evaluator (.map data)))) := by
  have hes : s.evaluations evaluator (.map data) =
      .ok ((s.valued (.map data)).map (Schema.evaluationOf evaluator (.map data))) :=
    Schema.evaluations_eq fun f _ => ⟨_, rfl⟩
  obtain ⟨b, hrun, hanswers⟩ := @run_schedule (asking s (.map data))
    ((s.valued (.map data)).map (Schema.evaluationOf evaluator (.map data))) (by simp [asking])
  refine ⟨⟨b, ?_, ?_⟩, ?_, fun hr => ?_⟩
  · rw [← hrun, opened, asking, List.map_map, List.map_map]
    rfl
  · rw [hanswers, List.map_map, List.map_map]
    rfl
  · have hcancelled : ((s.valued (.map data)).map (Schema.evaluationOf evaluator (.map data))).any
        (fun e => Evaluation.isCancelled e.plan.answer) = false := by
      rw [List.any_map] at hc ⊢
      exact hc
    simp only [Schema.evaluate, hes, hcancelled, Bool.false_eq_true, if_false]
    rw [collect, hc, Schema.findingsOf, asking, List.zip_map', List.foldl_map, List.foldl_map]
    rfl
  · rw [Schema.evaluate, hes]
    refine recordOf_marks now fun e he => ?_
    obtain ⟨f, -, rfl⟩ := List.mem_map.mp he
    exact hr f _

/-- In whatever order the evaluations of a form's fields end and whatever they answer, every field that has a value is
evaluated once, the others are not, and each field gets what its own evaluation found, nothing if that failed. The
evaluation of the form is such a batch. -/
theorem fields_evaluated_apart {s : Schema} (hn : s.ids.Nodup) (data : Entries) :
    (∀ events b answers, (opened s (.map data)).run? events = some b → b.answers = answers.map some →
      answers.any Evaluation.isCancelled = false →
        Isolated s (.map data) events (collect s (asking s (.map data)) answers)) ∧
    ∀ (evaluator : Evaluator) (now : Nat),
      (∀ f ∈ s.valued (.map data), Evaluation.isCancelled (evaluator f (Value.entry (.map data) f.id)).answer = false) →
        ∃ events, InOrder s (.map data) evaluator now events ∧
          Isolated s (.map data) events (s.evaluate evaluator (.map data) now).findings := by
  refine ⟨fun events b answers hrun hall hc => run_isolated hn hrun hall hc, fun evaluator now hc => ?_⟩
  have hc : ((s.valued (.map data)).map fun f => (evaluator f (Value.entry (.map data) f.id)).answer).any
      Evaluation.isCancelled = false := by
    rw [List.any_map, List.any_eq_false]
    exact fun f hf => by simp [hc f hf]
  have horder := evaluate_inOrder data evaluator now hc
  obtain ⟨b, hrun, hall⟩ := horder.run
  exact ⟨_, horder, horder.result ▸ run_isolated hn hrun hall hc⟩

end Batch

/-! ## A form with a failure and a blank -/

namespace Sample

def outing : Schema where
  id := "outing"
  title := .text "Outing"
  fields := [{ id := "name", type := .text, label := .text "Name" }, { id := "note", type := .text, label := .text "Note" },
    { id := "city", type := .text, label := .text "City" }]

def outingData : Entries := [(.text "city", .text "Rome"), (.text "note", .text " "), (.text "name", .text "Ann")]

def unknownName : Finding := ⟨.error, "No such name", .int 1, "", some "name"⟩

/-- It objects to names after a while, and fails on everything else at once. -/
def outingEvaluator : Evaluator := fun field _ =>
  if field.id = "name" then { pause := .time 20000, answer := .findings [unknownName], recorded := true }
  else { pause := .none, answer := .failed .tooLarge, recorded := true }

/-- The evaluation of the name ends before that of the city starts. -/
def nameFirst : List Batch.Event :=
  [.start 0, .finish 0 (.findings [unknownName]), .start 1, .finish 1 (.failed .tooLarge)]

theorem nameFirst_runs : ∃ b, (Batch.opened outing (.map outingData)).run? nameFirst = some b ∧
    b.answers = [Answer.findings [unknownName], .failed .tooLarge].map some := by
  refine ⟨_, rfl, rfl⟩

end Sample

namespace Batch

/-- The name has its finding, the note is blank and the evaluation of the city fails. -/
theorem fields_evaluated_apart_outing :
    (Sample.outing.evaluate Sample.outingEvaluator (.map Sample.outingData) 0).findings.toOption =
        some [("name", [Sample.unknownName]), ("note", []), ("city", [])] ∧
      Isolated Sample.outing (.map Sample.outingData) Sample.nameFirst (collect Sample.outing
        (asking Sample.outing (.map Sample.outingData)) [.findings [Sample.unknownName], .failed .tooLarge]) ∧
      ∃ events, InOrder Sample.outing (.map Sample.outingData) Sample.outingEvaluator 0 events ∧
        Isolated Sample.outing (.map Sample.outingData) events
          (Sample.outing.evaluate Sample.outingEvaluator (.map Sample.outingData) 0).findings := by
  have hapart := fields_evaluated_apart (s := Sample.outing) (by decide) Sample.outingData
  obtain ⟨b, hrun, hall⟩ := Sample.nameFirst_runs
  refine ⟨by decide +kernel, hapart.1 _ b _ hrun hall rfl, hapart.2 Sample.outingEvaluator 0 fun f _ => ?_⟩
  unfold Sample.outingEvaluator
  split <;> rfl

end Batch
end Formwork
