import Formwork.Draft
import Formwork.Proofs.Runs
import Mathlib.Data.List.Basic

/-!
Drafts at work. An operation that fails leaves the fields as they were, one that changes or removes a field touches the
first field of the id alone, and a schema that was built stays as it is whatever happens to the draft.
-/

namespace Formwork

namespace Draft

/-- What is done with a draft. -/
inductive Operation
  | add (id : Option String) (type label : Value) (changes : List Change)
  | suggest (context : String)
  | update (id : String) (changes : List Change)
  | remove (id : String)
  | build (id : Option String)

/-- What an operation gives back. -/
inductive Product
  | field (f : Field)
  | nothing
  | schema (s : Schema)

def Product.schema? : Except Fault Product → Option Schema
  | .ok (.schema s) => some s
  | _ => none

namespace Operation

def perform (d : Draft) : Operation → Except Fault Product × Draft
  | add id type label changes => let (f, d) := d.add id type label changes; (f.map .field, d)
  | suggest context => let (f, d) := d.addSuggested context; (f.map .field, d)
  | update id changes => let (f, d) := d.update id changes; (f.map .field, d)
  | remove id => let (done, d) := d.remove id; (done.map fun _ => .nothing, d)
  | build id => let (s, d) := d.build id; (s.map .schema, d)

end Operation

/-- The form of the draft under an id. -/
def form (d : Draft) (id : String) : Schema where
  id := id
  title := d.title
  fields := d.fields
  description := d.description
  submitLabel := d.submitLabel
  advisoryEnabled := d.advisoryEnabled

variable {d : Draft} {id : String} {fs : List Field} {f g : Field}

/-! ## The first field of an id -/

/-- The list is split at the first field of an id. -/
structure SplitAt (id : String) (fs before : List Field) (f : Field) (after : List Field) : Prop where
  fields : fs = before ++ f :: after
  found : f.id = id
  first : ∀ x ∈ before, x.id ≠ id

theorem SplitAt.of_find? (h : (fs.find? fun f => f.id = id) = some f) :
    ∃ before after, SplitAt id fs before f after := by
  obtain ⟨hid, before, after, hfs, hfirst⟩ := List.find?_eq_some_iff_append.mp h
  exact ⟨before, after, hfs, by simpa using hid, fun x hx => by simpa using hfirst x hx⟩

theorem SplitAt.replaceFirst {before after : List Field} (h : SplitAt id fs before f after) (g : Field) :
    Draft.replaceFirst id g fs = before ++ g :: after := by
  obtain ⟨rfl, hf, hfirst⟩ := h
  induction before with
  | nil => simp [Draft.replaceFirst, hf]
  | cons x before ih =>
      obtain ⟨hx, hrest⟩ := List.forall_mem_cons.mp hfirst
      simp [Draft.replaceFirst, hx, ih hrest]

theorem SplitAt.removeFirst {before after : List Field} (h : SplitAt id fs before f after) :
    Draft.removeFirst id fs = before ++ after := by
  obtain ⟨rfl, hf, hfirst⟩ := h
  induction before with
  | nil => simp [Draft.removeFirst, hf]
  | cons x before ih =>
      obtain ⟨hx, hrest⟩ := List.forall_mem_cons.mp hfirst
      simp [Draft.removeFirst, hx, ih hrest]

/-! ## One operation -/

/-- An id that is made up leaves everything else of the draft alone. -/
theorem idOr_same (d : Draft) (name : String) (wanted : Option String) :
    ∃ n, (d.idOr name wanted).2 = { d with idsMade := n } := by
  unfold idOr
  split
  · exact ⟨d.idsMade, rfl⟩
  · exact ⟨_, rfl⟩

theorem idOr_wanted (d : Draft) (name : String) (h : id ≠ "") : d.idOr name (some id) = (id, d) := by
  simp [idOr, Option.filter, h]

/-- What an operation on a draft comes to: its result, and the draft after it. -/
inductive Comes (d : Draft) : Operation → Except Fault Product → Draft → Prop
  | added (id : Option String) (type label : Value) (changes : List Change) (f : Field) (n : Nat)
      (h : applyAll { id := (d.idOr "field" id).1, type := .text, label } (.type type :: changes) = .ok f) :
      Comes d (.add id type label changes) (.ok (.field f)) { d with fields := d.fields ++ [f], idsMade := n }
  | notAdded (id : Option String) (type label : Value) (changes : List Change) (e : Fault) (n : Nat)
      (h : applyAll { id := (d.idOr "field" id).1, type := .text, label } (.type type :: changes) = .error e) :
      Comes d (.add id type label changes) (.error e) { d with idsMade := n }
  | suggested (context : String) (f : Field) (n : Nat)
      (h : Suggestion.field context (d.idOr "field" none).1 = .ok f) :
      Comes d (.suggest context) (.ok (.field f)) { d with fields := d.fields ++ [f], idsMade := n }
  | notSuggested (context : String) (e : Fault) (n : Nat)
      (h : Suggestion.field context (d.idOr "field" none).1 = .error e) :
      Comes d (.suggest context) (.error e) { d with idsMade := n }
  | updated {id : String} {changes : List Change} {before after : List Field} {f g : Field}
      (hs : SplitAt id d.fields before f after) (hg : applyAll f changes = .ok g) :
      Comes d (.update id changes) (.ok (.field g)) { d with fields := before ++ g :: after }
  | notUpdated {id : String} {changes : List Change} {before after : List Field} {f : Field} {e : Fault}
      (hs : SplitAt id d.fields before f after) (he : applyAll f changes = .error e) :
      Comes d (.update id changes) (.error e) d
  | noneToUpdate {id : String} {changes : List Change} (h : ∀ f ∈ d.fields, f.id ≠ id) :
      Comes d (.update id changes) (.error (.noKey id)) d
  | removed {id : String} {before after : List Field} {f : Field} (hs : SplitAt id d.fields before f after) :
      Comes d (.remove id) (.ok .nothing) { d with fields := before ++ after }
  | noneToRemove {id : String} (h : ∀ f ∈ d.fields, f.id ≠ id) : Comes d (.remove id) (.error (.noKey id)) d
  | built (id : Option String) (v : Validator) (n : Nat)
      (hv : Validator.ofSchema (d.form (d.idOr "form" id).1) = .ok v) :
      Comes d (.build id) (.ok (.schema (d.form (d.idOr "form" id).1))) { d with idsMade := n }
  | notBuilt (id : Option String) (e : Fault) (n : Nat)
      (he : Validator.ofSchema (d.form (d.idOr "form" id).1) = .error e) :
      Comes d (.build id) (.error e) { d with idsMade := n }

theorem add_comes (d : Draft) (id : Option String) (type label : Value) (changes : List Change) :
    d.Comes (.add id type label changes) ((Operation.add id type label changes).perform d).1
      ((Operation.add id type label changes).perform d).2 := by
  obtain ⟨n, hn⟩ := d.idOr_same "field" id
  simp only [Operation.perform, add, hn]
  cases h : applyAll { id := (d.idOr "field" id).1, type := .text, label } (.type type :: changes) with
  | error e => exact .notAdded id type label changes e n h
  | ok f => exact .added id type label changes f n h

theorem suggest_comes (d : Draft) (context : String) :
    d.Comes (.suggest context) ((Operation.suggest context).perform d).1 ((Operation.suggest context).perform d).2 := by
  obtain ⟨n, hn⟩ := d.idOr_same "field" none
  simp only [Operation.perform, addSuggested, hn]
  cases h : Suggestion.field context (d.idOr "field" none).1 with
  | error e => exact .notSuggested context e n h
  | ok f => exact .suggested context f n h

theorem update_comes (d : Draft) (id : String) (changes : List Change) :
    d.Comes (.update id changes) ((Operation.update id changes).perform d).1
      ((Operation.update id changes).perform d).2 := by
  cases hf : d.fields.find? fun f => f.id = id with
  | none =>
      simp only [Operation.perform, update, hf]
      exact .noneToUpdate fun f hm => by simpa using List.find?_eq_none.mp hf f hm
  | some f =>
      obtain ⟨before, after, hs⟩ := SplitAt.of_find? hf
      cases hg : applyAll f changes with
      | error e =>
          simp only [Operation.perform, update, hf, hg]
          exact .notUpdated hs hg
      | ok g =>
          simp only [Operation.perform, update, hf, hg, hs.replaceFirst g]
          exact .updated hs hg

theorem remove_comes (d : Draft) (id : String) :
    d.Comes (.remove id) ((Operation.remove id).perform d).1 ((Operation.remove id).perform d).2 := by
  simp only [Operation.perform, remove]
  cases hd : d.has id with
  | false => exact .noneToRemove fun f hm => by simpa using List.any_eq_false.mp hd f hm
  | true =>
      obtain ⟨f, hf⟩ := Option.isSome_iff_exists.mp (List.find?_isSome.mpr (List.any_eq_true.mp hd))
      obtain ⟨before, after, hs⟩ := SplitAt.of_find? hf
      simp only [if_true, hs.removeFirst]
      exact .removed hs

theorem build_eq (d : Draft) (id : Option String) : d.build id =
    match Validator.ofSchema (d.form (d.idOr "form" id).1) with
    | .ok _ => (.ok (d.form (d.idOr "form" id).1), (d.idOr "form" id).2)
    | .error e => (.error e, (d.idOr "form" id).2) := by
  obtain ⟨n, hn⟩ := d.idOr_same "form" id
  cases hv : Validator.ofSchema (d.form (d.idOr "form" id).1) with
  | ok _ | error _ =>
      rw [form] at hv
      simp only [build, form, hn, hv]

theorem build_comes (d : Draft) (id : Option String) :
    d.Comes (.build id) ((Operation.build id).perform d).1 ((Operation.build id).perform d).2 := by
  obtain ⟨n, hn⟩ := d.idOr_same "form" id
  simp only [Operation.perform, build_eq, hn]
  cases hv : Validator.ofSchema (d.form (d.idOr "form" id).1) with
  | error e => exact .notBuilt id e n hv
  | ok v => exact .built id v n hv

theorem perform_comes (d : Draft) (op : Operation) : d.Comes op (op.perform d).1 (op.perform d).2 := by
  cases op with
  | add id type label changes => exact d.add_comes id type label changes
  | suggest context => exact d.suggest_comes context
  | update id changes => exact d.update_comes id changes
  | remove id => exact d.remove_comes id
  | build id => exact d.build_comes id

/-- What an operation keeps, and what it changes. -/
structure Atomic (d : Draft) (op : Operation) (result : Except Fault Product) (d' : Draft) : Prop where
  failed : ∀ e, result = .error e → d'.fields = d.fields
  /-- The title and the settings of the form are not touched. -/
  settings : ∀ id, d'.form id = { d.form id with fields := d'.fields }
  added : (∃ id type label changes, op = .add id type label changes) ∨ (∃ context, op = .suggest context) →
    ∀ p, result = .ok p → ∃ f, p = .field f ∧ d'.fields = d.fields ++ [f]
  updated : ∀ id changes, op = .update id changes → ∀ p, result = .ok p → ∃ before f after g,
    SplitAt id d.fields before f after ∧ applyAll f changes = .ok g ∧ p = .field g ∧
      d'.fields = before ++ g :: after
  removed : ∀ id, op = .remove id → ∀ p, result = .ok p → ∃ before f after,
    SplitAt id d.fields before f after ∧ d'.fields = before ++ after
  /-- A field is missed exactly if no field has the id. -/
  missed : ∀ id, (op = .remove id ∨ ∃ changes, op = .update id changes) → (∀ f ∈ d.fields, f.id ≠ id) →
    result = .error (.noKey id)
  built : ∀ wanted, op = .build wanted → d'.fields = d.fields ∧ ∀ s, result = .ok (.schema s) ↔
    s = d.form (d.idOr "form" wanted).1 ∧ ∃ v, Validator.ofSchema s = .ok v

theorem SplitAt.mem {before after : List Field} (h : SplitAt id fs before f after) : f ∈ fs := by
  simp [h.fields]

theorem Comes.atomic {op : Operation} {result : Except Fault Product} {d' : Draft} (h : d.Comes op result d') :
    d.Atomic op result d' where
  failed e he := by
    cases h with
    | notAdded | notSuggested | notUpdated | noneToUpdate | noneToRemove | built | notBuilt => rfl
    | added | suggested | updated | removed => cases he
  settings id := by cases h <;> rfl
  added hop p hp := by
    cases h with
    | added _ _ _ _ f | suggested _ f => exact ⟨f, (Except.ok.inj hp).symm, rfl⟩
    | notAdded | notSuggested | notUpdated | noneToUpdate | noneToRemove | notBuilt => cases hp
    | updated | removed | built => simp at hop
  updated id changes hop p hp := by
    cases h with
    | updated hs hg =>
        cases hop
        exact ⟨_, _, _, _, hs, hg, (Except.ok.inj hp).symm, rfl⟩
    | notUpdated | noneToUpdate => cases hp
    | _ => cases hop
  removed id hop p hp := by
    cases h with
    | removed hs =>
        cases hop
        exact ⟨_, _, _, hs, rfl⟩
    | noneToRemove => cases hp
    | _ => cases hop
  missed id hop hnone := by
    cases h with
    | updated hs | notUpdated hs =>
        obtain ⟨changes, hop⟩ := hop.resolve_left (by simp)
        cases hop
        exact absurd hs.found (hnone _ hs.mem)
    | removed hs =>
        cases hop.resolve_right (by simp)
        exact absurd hs.found (hnone _ hs.mem)
    | noneToUpdate =>
        obtain ⟨changes, hop⟩ := hop.resolve_left (by simp)
        cases hop
        rfl
    | noneToRemove =>
        cases hop.resolve_right (by simp)
        rfl
    | _ => simp at hop
  built wanted hop := by
    cases h with
    | built id v n hv =>
        cases hop
        refine ⟨rfl, fun s => ⟨fun hs => ?_, fun hs => hs.1 ▸ rfl⟩⟩
        cases hs
        exact ⟨rfl, v, hv⟩
    | notBuilt id e n he =>
        cases hop
        refine ⟨rfl, fun s => ⟨fun hs => ?_, fun hs => ?_⟩⟩
        · cases hs
        · obtain ⟨rfl, v, hv⟩ := hs
          cases he.symm.trans hv
    | _ => cases hop

end Draft

/-! ## Many operations -/

/-- A draft, with the schemas that it was begun from and those that were built from it. -/
structure Workbench where
  draft : Draft
  schemas : List Schema := []

namespace Workbench

open Draft

/-- A draft begun from a schema. -/
def ofSchema (s : Schema) : Workbench := { draft := .ofSchema s, schemas := [s] }

def perform (b : Workbench) (op : Operation) : Workbench where
  draft := (op.perform b.draft).2
  schemas := b.schemas ++ (Product.schema? (op.perform b.draft).1).toList

def run (b : Workbench) (ops : List Operation) : Workbench := ops.foldl perform b

theorem schemas_run (b : Workbench) (ops : List Operation) : b.schemas <+: (b.run ops).schemas := by
  induction ops generalizing b with
  | nil => exact List.prefix_rfl
  | cons op ops ih => exact (List.prefix_append _ _).trans (ih (b.perform op))

theorem run_append (b : Workbench) (ops more : List Operation) : b.run (ops ++ more) = (b.run ops).run more :=
  List.foldl_append ..

end Workbench

/-- A form with a validator is built again from its own draft. -/
theorem Draft.build_ofSchema {s : Schema} {v : Validator} (hid : s.id ≠ "") (hv : Validator.ofSchema s = .ok v) :
    ((Draft.ofSchema s).build (some s.id)).1 = .ok s := by
  have hform : (Draft.ofSchema s).form s.id = s := rfl
  rw [build_eq, idOr_wanted _ _ hid, hform, hv]

/-- In any sequence of operations, on a draft that is empty or was begun from a schema: one that fails leaves the fields
as they were, one that succeeds does what it says to the first field of the id and to no other, a schema is built
exactly if it has a validator, and the schemas there were stay as they are. A schema that has a validator is built
again from its own draft. -/
theorem Workbench.operations_atomic (b : Workbench) (before : List Draft.Operation) (op : Draft.Operation)
    (after : List Draft.Operation) :
    (b.run before).draft.Atomic op (op.perform (b.run before).draft).1 (b.run (before ++ [op])).draft ∧
      (b.run before).schemas ++ (Draft.Product.schema? (op.perform (b.run before).draft).1).toList <+:
        (b.run (before ++ op :: after)).schemas ∧
      ∀ s v, s.id ≠ "" → Validator.ofSchema s = .ok v → ((Draft.ofSchema s).build (some s.id)).1 = .ok s := by
  refine ⟨?_, ?_, fun s v hid hv => Draft.build_ofSchema hid hv⟩
  · rw [run_append]
    exact ((b.run before).draft.perform_comes op).atomic
  · rw [List.append_cons, run_append, run_append]
    exact schemas_run ((b.run before).perform op) after

namespace Sample

/-- A survey whose field is given the id of a second one, which is then renamed. -/
def redrafted : List Draft.Operation :=
  [.add (some "name") (.text "number") (.text "Age") [], .build (some "twins"),
    .update "name" [.unknown "colour"], .update "name" [.id "nick"], .build (some "renamed")]

end Sample

theorem Workbench.operations_atomic_survey :
    ((Workbench.ofSchema Sample.schema).run Sample.redrafted).draft.fields.map (·.id) = ["nick", "news", "name"] ∧
      (∃ before f after, Draft.SplitAt "name" ((Workbench.ofSchema Sample.schema).run Sample.redrafted).draft.fields
        before f after ∧
          ((Workbench.ofSchema Sample.schema).run (Sample.redrafted ++ [.remove "name"])).draft.fields =
            before ++ after) ∧
      ((Draft.ofSchema Sample.schema).build (some "survey")).1 = .ok Sample.schema := by
  obtain ⟨hatomic, -, hbuild⟩ :=
    Workbench.operations_atomic (.ofSchema Sample.schema) Sample.redrafted (.remove "name") []
  have hv : Validator.ofSchema Sample.schema = .ok Sample.session.validator := rfl
  exact ⟨by decide +kernel, hatomic.removed "name" rfl .nothing rfl, hbuild Sample.schema _ (by decide) hv⟩

end Formwork
