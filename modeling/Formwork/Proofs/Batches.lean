import Formwork.Evaluation
import Formwork.Proofs.Checks
import Mathlib.Data.List.Forall2
import Mathlib.Logic.Function.Basic

/-!
Evaluating all fields of a form at once: which values are evaluated, and what is found for each field.
-/

namespace Formwork

/-! ## Traversals that may fail -/

theorem mapM_ok_iff {α β : Type} {f : α → Except Fault β} {l : List α} {r : List β} :
    l.mapM f = .ok r ↔ List.Forall₂ (fun a b => f a = .ok b) l r := by
  induction l generalizing r with
  | nil => cases r <;> simp [pure, Except.pure]
  | cons a l ih =>
      rw [List.mapM_cons]
      cases ha : f a with
      | error e => cases r <;> simp [ha, bind, Except.bind]
      | ok b =>
          cases hl : l.mapM f with
          | error e => cases r <;> simp [ha, bind, Except.bind, ← ih, hl]
          | ok bs => cases r <;> simp [ha, bind, Except.bind, pure, Except.pure, ← ih, hl]

/-- What there is for every element of a list, as a list. -/
theorem exists_forall₂ {α β : Type} {r : α → β → Prop} {l : List α} (h : ∀ a ∈ l, ∃ b, r a b) :
    ∃ bs, List.Forall₂ r l bs := by
  induction l with
  | nil => exact ⟨[], .nil⟩
  | cons a l ih =>
      obtain ⟨⟨b, hb⟩, h⟩ := List.forall_mem_cons.mp h
      obtain ⟨bs, hbs⟩ := ih h
      exact ⟨b :: bs, .cons hb hbs⟩

/-- What a traversal finds is found in one of its steps. -/
theorem mapM_mem {α β : Type} {f : α → Except Fault β} {l : List α} {r : List β} (h : l.mapM f = .ok r) {b : β}
    (hb : b ∈ r) : ∃ a ∈ l, f a = .ok b := by
  rw [mapM_ok_iff] at h
  induction h with
  | nil => cases hb
  | cons hab _ ih =>
      rcases List.mem_cons.mp hb with rfl | hb
      · exact ⟨_, List.mem_cons_self, hab⟩
      · obtain ⟨c, hc, he⟩ := ih hb
        exact ⟨c, List.mem_cons_of_mem _ hc, he⟩

/-- A traversal that names what it finds: everything is found, and the names are in order. -/
theorem mapM_pair {α β : Type} {name : α → String} {f : α → Except Fault β} {l : List α}
    {r : List (String × β)} (h : l.mapM (fun a => do return (name a, ← f a)) = .ok r) :
    (∀ a ∈ l, ∃ b, f a = .ok b) ∧ r.map (·.1) = l.map name := by
  have hr : List.Forall₂ (fun a (p : String × β) => (∃ b, f a = .ok b) ∧ name a = p.1) l r := by
    refine (mapM_ok_iff.mp h).imp fun a p hp => ?_
    obtain ⟨b, hf, hp⟩ := bind_ok.mp hp
    exact ⟨⟨b, hf⟩, Except.ok.inj hp ▸ rfl⟩
  obtain ⟨hall, hnames⟩ := (List.forall₂_and_left l r).mp hr
  refine ⟨hall, ?_⟩
  rw [← List.forall₂_eq_eq_eq, List.forall₂_map_left_iff, List.forall₂_map_right_iff]
  exact hnames.flip.imp fun _ _ h => h.symm

theorem mapM_congr {α β γ : Type} {f : α → Except Fault γ} {g : β → Except Fault γ} {l : List α} {m : List β}
    (h : List.Forall₂ (fun a b => f a = g b) l m) : l.mapM f = m.mapM g := by
  induction h with
  | nil => rfl
  | cons hab _ ih => rw [List.mapM_cons, List.mapM_cons, hab, ih]

/-- A traversal breaks off where one of its steps does. -/
theorem mapM_error {α β : Type} {f : α → Except Fault β} {l : List α} {e : Fault} (h : l.mapM f = .error e) :
    ∃ a ∈ l, f a = .error e := by
  induction l with
  | nil => cases h
  | cons a l ih =>
      rw [List.mapM_cons] at h
      cases ha : f a with
      | error d =>
          simp only [ha, bind, Except.bind, Except.error.injEq] at h
          exact ⟨a, List.mem_cons_self, h ▸ ha⟩
      | ok b =>
          cases hl : l.mapM f with
          | error d =>
              simp only [ha, hl, bind, Except.bind, Except.error.injEq] at h
              obtain ⟨c, hc, he⟩ := ih (h ▸ hl)
              exact ⟨c, List.mem_cons_of_mem a hc, he⟩
          | ok bs => simp [ha, hl, bind, Except.bind, pure, Except.pure] at h

theorem mapM_ok_of_forall {α β : Type} {f : α → Except Fault β} {l : List α} {g : α → β}
    (h : ∀ a ∈ l, f a = .ok (g a)) : l.mapM f = .ok (l.map g) :=
  mapM_ok_iff.mpr (List.forall₂_map_right_iff.mpr (List.forall₂_same.mpr h))

/-- What stands under a name that no other entry has. -/
theorem lookup_map {α β : Type} {name : α → String} (g : α → β) {l : List α} (hn : (l.map name).Nodup) {a : α}
    (ha : a ∈ l) : (l.map fun a => (name a, g a)).lookup (name a) = some (g a) := by
  induction l with
  | nil => cases ha
  | cons d l ih =>
      obtain ⟨hd, hn⟩ := List.nodup_cons.mp hn
      rw [List.map_cons, List.lookup_cons]
      rcases List.mem_cons.mp ha with rfl | ha
      · simp
      · have hne : name a ≠ name d := fun he => hd (List.mem_map.mpr ⟨a, ha, he⟩)
        simpa [beq_eq_false_iff_ne.mpr hne] using ih hn ha

/-- The entries of a map with names for keys are found by their names. -/
theorem Entries.find?_record (es : List (String × Value)) (name : String) :
    Entries.find? (es.map fun e => (.text e.1, e.2)) (.text name) = es.lookup name := by
  induction es with
  | nil => rfl
  | cons e es ih =>
      rw [List.map_cons, find?, List.lookup_cons, ih]
      by_cases h : e.1 = name
      · simp [Value.eqv, Value.same, Value.isNaN, h]
      · simp [Value.eqv, Value.same, h, beq_eq_false_iff_ne.mpr (Ne.symm h)]

namespace Value

/-- The value of a field, nothing if it is missing. -/
def entry (values : Value) (id : String) : Value := ((values.get id).toOption).getD .null

theorem get_entry {values v : Value} {id : String} (h : values.get id = .ok v) :
    values.get id = .ok (values.entry id) := by
  rw [entry, h]
  rfl

theorem get_record (es : List (String × Value)) (id : String) :
    (Value.record es).get id = .ok ((es.lookup id).getD .null) := by
  rw [record, get, getD, Entries.find?_record]

theorem entry_record (es : List (String × Value)) (id : String) :
    (record es).entry id = (es.lookup id).getD .null := by
  rw [entry, get_record]
  rfl

end Value

/-! ## Findings by field -/

namespace FindingMap

variable {keys : List String} {g : String → List Finding} {id : String} {found : List Finding}

theorem put_fresh {m : FindingMap} (h : id ∉ m.map (·.1)) : m.put id found = m ++ [(id, found)] := by
  induction m with
  | nil => rfl
  | cons e m ih =>
      simp only [List.map_cons, List.mem_cons, not_or] at h
      rw [put, if_neg (Ne.symm h.1), ih h.2, List.cons_append]

theorem put_map (hn : keys.Nodup) (h : id ∈ keys) :
    put (keys.map fun k => (k, g k)) id found = keys.map fun k => (k, Function.update g id found k) := by
  induction keys with
  | nil => cases h
  | cons k keys ih =>
      obtain ⟨hk, hn⟩ := List.nodup_cons.mp hn
      by_cases he : k = id
      · subst he
        have hr : keys.map (fun j => (j, Function.update g k found j)) = keys.map fun j => (j, g j) := by
          refine List.map_congr_left fun j hj => ?_
          rw [Function.update_of_ne]
          exact fun he => hk (he ▸ hj)
        simp [put, hr]
      · have h := (List.mem_cons.mp h).resolve_left (Ne.symm he)
        simp only [List.map_cons, put, if_neg he, ih hn h, Function.update_of_ne he]

end FindingMap

namespace Schema

variable {s : Schema} {evaluator : Evaluator} {values : Value}

/-- The fields with a value. -/
def valued (s : Schema) (values : Value) : List Field :=
  s.fields.filter fun f => !(values.entry f.id).isBlank

def evaluationOf (evaluator : Evaluator) (values : Value) (f : Field) : Evaluation :=
  ⟨f, values.entry f.id, evaluator f (values.entry f.id)⟩

theorem evaluations_eq (h : ∀ f ∈ s.fields, ∃ v, values.get f.id = .ok v) :
    s.evaluations evaluator values = .ok ((s.valued values).map (evaluationOf evaluator values)) := by
  have hm : s.fields.mapM (fun f => do return (f, ← values.get f.id)) =
      .ok (s.fields.map fun f => (f, values.entry f.id)) := by
    refine mapM_ok_of_forall fun f hf => ?_
    obtain ⟨v, hv⟩ := h f hf
    rw [Value.get_entry hv]
    rfl
  rw [evaluations, hm]
  simp only [bind, Except.bind, pure, Except.pure, List.filter_map, List.map_map]
  rfl

/-- What is found in a batch, for a field with a value or without one. -/
def returned (evaluator : Evaluator) (values : Value) (f : Field) : List Finding :=
  if (values.entry f.id).isBlank then []
  else Evaluation.found (evaluator f (values.entry f.id)).answer

theorem foldl_put_fresh {fields : List Field} {m : FindingMap}
    (hn : (m.map (·.1) ++ fields.map (·.id)).Nodup) :
    fields.foldl (fun m f => m.put f.id []) m = m ++ fields.map fun f => (f.id, []) := by
  induction fields generalizing m with
  | nil => simp
  | cons f fields ih =>
      have hf : f.id ∉ m.map (·.1) := by
        intro hm
        exact (List.nodup_append.mp hn).2.2 _ hm _ (by simp) rfl
      rw [List.foldl_cons, FindingMap.put_fresh hf, ih]
      · simp
      · simpa using hn

theorem foldl_put_map {keys : List String} (hk : keys.Nodup) {es : List Evaluation}
    (he : ∀ e ∈ es, e.field.id ∈ keys) (g : String → List Finding) :
    es.foldl (fun (m : FindingMap) e => m.put e.field.id (Evaluation.found e.plan.answer)) (keys.map fun k => (k, g k)) =
      keys.map fun k => (k, es.foldl
        (fun g e => Function.update g e.field.id (Evaluation.found e.plan.answer)) g k) := by
  induction es generalizing g with
  | nil => rfl
  | cons e es ih =>
      rw [List.foldl_cons, FindingMap.put_map hk (he e List.mem_cons_self), ih]
      · rfl
      · exact fun d hd => he d (List.mem_cons_of_mem e hd)

theorem foldl_update_of_notMem {es : List Evaluation} {k : String} (h : ∀ e ∈ es, e.field.id ≠ k)
    (g : String → List Finding) :
    es.foldl (fun g e => Function.update g e.field.id (Evaluation.found e.plan.answer)) g k = g k := by
  induction es generalizing g with
  | nil => rfl
  | cons e es ih =>
      rw [List.foldl_cons, ih fun d hd => h d (List.mem_cons_of_mem e hd),
        Function.update_of_ne (Ne.symm (h e List.mem_cons_self))]

theorem foldl_update {fields : List Field} (hn : (fields.map (·.id)).Nodup) {f : Field} (hf : f ∈ fields)
    (g : String → List Finding) (hg : g f.id = []) :
    ((fields.filter fun f => !(values.entry f.id).isBlank).map (evaluationOf evaluator values)).foldl
      (fun g e => Function.update g e.field.id (Evaluation.found e.plan.answer)) g f.id =
        returned evaluator values f := by
  induction fields generalizing g with
  | nil => cases hf
  | cons d fields ih =>
      obtain ⟨hd, hn⟩ := List.nodup_cons.mp hn
      have others : ∀ e ∈ (fields.filter fun f => !(values.entry f.id).isBlank).map (evaluationOf evaluator values),
          e.field.id ≠ d.id := by
        intro e he heq
        obtain ⟨x, hx, rfl⟩ := List.mem_map.mp he
        exact hd (List.mem_map.mpr ⟨x, (List.mem_filter.mp hx).1, heq⟩)
      cases hb : (values.entry d.id).isBlank with
      | true =>
          rw [List.filter_cons_of_neg (by simp [hb])]
          rcases List.mem_cons.mp hf with rfl | hf
          · rw [foldl_update_of_notMem others, hg, returned, if_pos hb]
          · exact ih hn hf g hg
      | false =>
          rw [List.filter_cons_of_pos (by simp [hb]), List.map_cons, List.foldl_cons]
          rcases List.mem_cons.mp hf with rfl | hf
          · rw [foldl_update_of_notMem others, returned, if_neg (by simp [hb])]
            exact Function.update_self ..
          · refine ih hn hf _ ?_
            rw [Function.update_of_ne, hg]
            exact fun heq => hd (List.mem_map.mpr ⟨f, hf, heq⟩)

/-- A batch finds for every field what its own evaluation returns. -/
theorem findingsOf_eq (hn : s.ids.Nodup) :
    s.findingsOf ((s.valued values).map (evaluationOf evaluator values)) =
      s.fields.map fun f => (f.id, returned evaluator values f) := by
  have hbase : s.fields.foldl (fun m f => FindingMap.put m f.id []) [] = s.ids.map fun k => (k, []) := by
    rw [foldl_put_fresh (by simpa [ids] using hn), ids, List.map_map]
    rfl
  have hkeys : ∀ e ∈ (s.valued values).map (evaluationOf evaluator values), e.field.id ∈ s.ids := by
    intro e he
    obtain ⟨f, hf, rfl⟩ := List.mem_map.mp he
    exact List.mem_map_of_mem (List.mem_filter.mp hf).1
  rw [findingsOf, hbase, foldl_put_map hn hkeys fun _ => [], ids, List.map_map]
  refine List.map_congr_left fun f hf => ?_
  rw [Function.comp_apply, valued, foldl_update hn hf _ rfl]

end Schema
end Formwork
