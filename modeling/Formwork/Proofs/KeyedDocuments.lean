import Formwork.FormFile
import Formwork.Proofs.Shapes

/-!
Documents that are read. No map of theirs has a key twice.
-/

namespace Formwork

namespace Entries

variable {es : Entries} {key value : Value}

/-- No key stands before an equal one. -/
def Distinct (es : Entries) : Prop := es.Pairwise fun e e' => ¬ e.1.eqv e'.1

theorem mem_of_find? (h : es.find? key = some value) : ∃ e ∈ es, e.2 = value := by
  induction es with
  | nil => cases h
  | cons e es ih =>
      rw [find?] at h
      split at h
      · exact ⟨e, by simp, Option.some.inj h⟩
      · obtain ⟨e', he', heq⟩ := ih h
        exact ⟨e', List.mem_cons_of_mem _ he', heq⟩

theorem mem_put {e : Value × Value} (h : e ∈ es.put key value) :
    (e.1 = key ∨ e.1 ∈ es.map Prod.fst) ∧ (e.2 = value ∨ e ∈ es) := by
  induction es with
  | nil =>
      obtain rfl := List.mem_singleton.mp h
      exact ⟨.inl rfl, .inl rfl⟩
  | cons head es ih =>
      rw [put] at h
      split at h
      · rcases List.mem_cons.mp h with rfl | h
        · exact ⟨.inr (by simp), .inl rfl⟩
        · exact ⟨.inr (List.mem_cons_of_mem _ (List.mem_map_of_mem h)), .inr (List.mem_cons_of_mem _ h)⟩
      · rcases List.mem_cons.mp h with rfl | h
        · exact ⟨.inr (by simp), .inr (by simp)⟩
        · obtain ⟨hkey, hvalue⟩ := ih h
          exact ⟨hkey.imp_right (List.mem_cons_of_mem _), hvalue.imp_right (List.mem_cons_of_mem _)⟩

theorem Distinct.put (h : es.Distinct) (key value : Value) : (es.put key value).Distinct := by
  induction es with
  | nil => exact List.pairwise_singleton _ _
  | cons head es ih =>
      obtain ⟨hhead, hrest⟩ := List.pairwise_cons.mp h
      rw [Entries.put]
      split
      · exact List.pairwise_cons.mpr ⟨hhead, hrest⟩
      · next hne =>
          refine List.pairwise_cons.mpr ⟨fun e he => ?_, ih hrest⟩
          rcases (mem_put he).1 with heq | hold
          · rw [heq]
            exact hne
          · obtain ⟨e', he', heq⟩ := List.mem_map.mp hold
            rw [← heq]
            exact hhead e' he'

theorem Distinct.nodup (h : es.Distinct) (hk : ∀ k ∈ es.map Prod.fst, ∃ s, k = .text s) : (es.map Prod.fst).Nodup := by
  refine List.pairwise_map.mpr (List.Pairwise.imp_of_mem (fun {a b} ha _ hne heq => hne ?_) h)
  obtain ⟨s, hs⟩ := hk a.1 (List.mem_map_of_mem ha)
  rw [← heq, hs, Value.eqv_text]

end Entries

namespace Value

/-- Keys are distinct in the value and in the lists and maps that it holds. -/
inductive Keyed : Value → Prop
  | map {es : Entries} (distinct : es.Distinct) (values : ∀ e ∈ es, Keyed e.2) : Keyed (.map es)
  | list {vs : List Value} (elements : ∀ v ∈ vs, Keyed v) : Keyed (.list vs)
  | plain {v : Value} (hmap : ∀ es, v ≠ .map es) (hlist : ∀ vs, v ≠ .list vs) : Keyed v

namespace Keyed

variable {es : Entries} {vs : List Value} {v : Value}

theorem null : Keyed .null := .plain nofun nofun

theorem map_iff : Keyed (.map es) ↔ es.Distinct ∧ ∀ e ∈ es, e.2.Keyed := by
  constructor
  · intro h
    cases h with
    | map distinct values => exact ⟨distinct, values⟩
    | plain hmap => exact absurd rfl (hmap es)
  · exact fun h => .map h.1 h.2

theorem list_iff : Keyed (.list vs) ↔ ∀ v ∈ vs, v.Keyed := by
  constructor
  · intro h
    cases h with
    | list elements => exact elements
    | plain _ hlist => exact absurd rfl (hlist vs)
  · exact .list

theorem put (h : Keyed (.map es)) (key : Value) (hv : v.Keyed) : Keyed (.map (es.put key v)) := by
  obtain ⟨distinct, values⟩ := map_iff.mp h
  refine .map (distinct.put key v) fun e he => ?_
  rcases (Entries.mem_put he).2 with heq | hold
  · rw [heq]
    exact hv
  · exact values e hold

theorem get (h : Keyed (.map es)) (name : String) : (es.get name).Keyed := by
  rw [Entries.get]
  cases hf : es.find? (.text name) with
  | none => exact null
  | some v =>
      obtain ⟨e, he, rfl⟩ := Entries.mem_of_find? hf
      exact (map_iff.mp h).2 e he

end Keyed
end Value

/-! ## Trees -/

namespace Yaml

theorem Pairs.entries_keyed {p : Pairs} (h : ∀ e ∈ p.pairs, e.2.value.Keyed) : Value.Keyed (.map p.entries) := by
  have hfold (es : Entries) (hes : Value.Keyed (.map es)) (pairs : List Pair) (hp : ∀ e ∈ pairs, e.2.value.Keyed) :
      Value.Keyed (.map (pairs.foldl (fun es e => Entries.put es e.1.value e.2.value) es)) := by
    induction pairs generalizing es with
    | nil => exact hes
    | cons e pairs ih => exact ih _ (hes.put _ (hp e (by simp))) fun e' he' => hp e' (List.mem_cons_of_mem _ he')
  exact hfold [] (.map .nil nofun) p.pairs h

namespace Node

theorem timestamp_keyed {text : String} {v : Value} (h : Timestamp.valueOf text = .ok v) : v.Keyed := by
  unfold Timestamp.valueOf at h
  dsimp only at h
  split at h
  · unfold Timestamp.value at h
    split at h <;> split at h <;> cases h <;> exact .plain nofun nofun
  · cases h

theorem scalarValue_keyed {tag : Tag} {text : String} {v : Value} (h : scalarValue tag text = .ok v) : v.Keyed := by
  unfold scalarValue at h
  split at h
  · cases h
    exact .null
  · unfold truthValue at h
    dsimp only at h
    split at h
    · cases h
      exact .plain nofun nofun
    · cases h
  · obtain ⟨n, -, rfl⟩ := map_ok.mp h
    exact .plain nofun nofun
  · obtain ⟨x, -, rfl⟩ := map_ok.mp h
    exact .plain nofun nofun
  · split at h
    · cases h
      exact .plain nofun nofun
    · cases h
  · exact timestamp_keyed h
  · cases h
    exact .plain nofun nofun
  · cases h

theorem attemptAt_keyed {depth : Nat} {r : Except Fault Value} (h : ∀ v, r = .ok v → v.Keyed) :
    (attemptAt depth r).value.Keyed := by
  cases r with
  | ok v => exact h v rfl
  | error e => exact .null

theorem pairsOf_keyed (depth : Nat) (pairs : List (Option Pair)) : (pairsOf depth pairs).value.Keyed := by
  induction pairs with
  | nil => exact .list nofun
  | cons pair rest ih =>
      cases pair with
      | none => exact .list nofun
      | some pair =>
          have htuple : Value.Keyed (.tuple [pair.1.value, pair.2.value]) := .plain nofun nofun
          rw [pairsOf]
          dsimp only
          split
          · next vs hvs =>
              rw [hvs] at ih
              refine .list fun v hv => ?_
              rcases List.mem_cons.mp hv with rfl | hv
              · exact htuple
              · exact Value.Keyed.list_iff.mp ih v hv
          · exact .list fun v hv => List.mem_singleton.mp hv ▸ htuple

theorem joined_keyed {merged : Pairs} {own : List Pair} (hm : ∀ e ∈ merged.pairs, e.2.value.Keyed)
    (ho : ∀ e ∈ own, e.2.value.Keyed) : ∀ e ∈ (joined merged own).pairs, e.2.value.Keyed :=
  List.forall_mem_append.mpr ⟨hm, ho⟩

-- One lemma for each function that reads the tree, by recursion on it as they have it.
mutual

theorem attempt_keyed (depth : Nat) (n : Node) : (attempt depth n).value.Keyed := by
  cases n with
  | scalar tag text =>
      unfold attempt
      split
      · exact .list nofun
      · exact .list nofun
      · exact .list nofun
      · exact .plain nofun nofun
      · exact .map .nil nofun
      · exact attemptAt_keyed fun v => scalarValue_keyed
  | sequence tag items =>
      unfold attempt
      split
      · exact .list fun v hv => by
          obtain ⟨a, ha, rfl⟩ := List.mem_map.mp hv
          exact attemptAll_keyed (depth + 1) items a ha
      · exact pairsOf_keyed _ _
      · exact pairsOf_keyed _ _
      · exact .plain nofun nofun
      · exact .map .nil nofun
      · exact .null
  | mapping tag entries =>
      unfold attempt
      split
      · exact Pairs.entries_keyed (joined_keyed (merged_keyed _ entries) (own_keyed _ entries))
      · exact .plain nofun nofun
      · exact .list nofun
      · exact .list nofun
      · exact .list nofun
      · split
        · refine attemptAt_keyed fun v hv => ?_
          split at hv
          · exact scalarValue_keyed hv
          · cases hv
        · exact .null
termination_by structural n

theorem attemptAll_keyed (depth : Nat) (ns : List Node) : ∀ a ∈ attemptAll depth ns, a.value.Keyed := by
  cases ns with
  | nil => exact nofun
  | cons n ns =>
      rw [attemptAll, List.forall_mem_cons]
      exact ⟨attempt_keyed depth n, attemptAll_keyed depth ns⟩
termination_by structural ns

theorem merged_keyed (depth : Nat) (entries : List (Node × Node)) : ∀ e ∈ (merged depth entries).pairs, e.2.value.Keyed := by
  cases entries with
  | nil => exact nofun
  | cons entry rest =>
      obtain ⟨key, value⟩ := entry
      rw [merged]
      split
      · exact List.forall_mem_append.mpr ⟨mergedFrom_keyed depth value, merged_keyed depth rest⟩
      · exact merged_keyed depth rest
termination_by structural entries

theorem mergedFrom_keyed (depth : Nat) (n : Node) : ∀ e ∈ (mergedFrom depth n).pairs, e.2.value.Keyed := by
  cases n with
  | scalar => exact nofun
  | mapping tag entries => exact joined_keyed (merged_keyed depth entries) (own_keyed depth entries)
  | sequence tag items => exact mergedFromAll_keyed depth items
termination_by structural n

theorem mergedFromAll_keyed (depth : Nat) (ns : List Node) : ∀ e ∈ (mergedFromAll depth ns).pairs, e.2.value.Keyed := by
  cases ns with
  | nil => exact nofun
  | cons n ns => exact List.forall_mem_append.mpr ⟨mergedFromAll_keyed depth ns, mergedFromItem_keyed depth n⟩
termination_by structural ns

theorem mergedFromItem_keyed (depth : Nat) (n : Node) : ∀ e ∈ (mergedFromItem depth n).pairs, e.2.value.Keyed := by
  cases n with
  | mapping tag entries => exact joined_keyed (merged_keyed depth entries) (own_keyed depth entries)
  | _ => exact nofun
termination_by structural n

theorem own_keyed (depth : Nat) (entries : List (Node × Node)) : ∀ e ∈ own depth entries, e.2.value.Keyed := by
  cases entries with
  | nil => exact nofun
  | cons entry rest =>
      obtain ⟨key, value⟩ := entry
      rw [own]
      split
      · exact own_keyed depth rest
      · exact List.forall_mem_cons.mpr ⟨attempt_keyed depth value, own_keyed depth rest⟩
termination_by structural entries

end

theorem value_keyed {n : Node} {v : Value} (h : n.value = .ok v) : v.Keyed := by
  unfold value at h
  dsimp only at h
  split at h
  · cases h
  · cases h
    exact attempt_keyed 0 n

end Node

theorem valueOf_keyed {text : String} {v : Value} (h : valueOf text = .ok v) : v.Keyed := by
  unfold valueOf at h
  obtain ⟨node?, -, h⟩ := bind_ok.mp h
  cases node? with
  | none =>
      cases h
      exact .null
  | some node => exact Node.value_keyed h

end Yaml

theorem FormFile.read_keyed {files : Files} {path : Path} {doc : Value} (h : (read files path).document = .ok doc) :
    doc.Keyed := by
  obtain ⟨text, -, h⟩ := bind_ok.mp h
  exact Yaml.valueOf_keyed h

end Formwork
