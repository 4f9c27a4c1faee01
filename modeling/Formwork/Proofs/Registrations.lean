import Formwork.Proofs.Batches
import Mathlib.Data.List.Induction

/-!
The registry of rules along a history: the first rule of every name stays until the registry is cleared, in the order of
registration. An engine has the rules of the moment at which it was made.
-/

namespace Formwork

/-- What is done with the registry. An engine that is made registers the built-in rules first. -/
inductive Registration
  | register (name : String) (rule : Rule)
  | decorate (name : String) (rule : Rule)
  | builtin
  | clear
  | engine (latency : Pause)

namespace Registration

def isClear : Registration → Bool
  | clear => true
  | _ => false

/-- The rules that are registered, by name. -/
def entries : Registration → List (String × Rule)
  | register name rule | decorate name rule => [(name, rule)]
  | builtin | engine _ => Rule.builtin
  | clear => []

/-- All that was registered since the registry was cleared last, in order. -/
def sinceClear (rs : List Registration) : List (String × Rule) :=
  (rs.reverse.takeWhile fun r => !r.isClear).reverse.flatMap entries

theorem sinceClear_concat (rs : List Registration) (r : Registration) :
    sinceClear (rs ++ [r]) = if r.isClear then [] else sinceClear rs ++ r.entries := by
  rw [sinceClear, List.reverse_append, List.reverse_singleton, List.singleton_append, List.takeWhile_cons]
  cases r.isClear with
  | true => rfl
  | false => simp [sinceClear]

/-- The rule that was registered first under each name, in the order of the names. -/
def firstRules (es : List (String × Rule)) : List Rule :=
  ((es.map (·.1)).eraseDups).filterMap fun name => es.lookup name

end Registration

/-- The registry, and the engines made so far. -/
structure Workshop where
  registry : Registry := {}
  engines : List Engine := []

namespace Workshop

def after (w : Workshop) : Registration → Workshop
  | .register name rule => { w with registry := w.registry.register name rule }
  | .decorate name rule => { w with registry := (w.registry.decorate name rule).2 }
  | .builtin => { w with registry := w.registry.withBuiltin }
  | .clear => { w with registry := w.registry.clear }
  | .engine latency =>
      { registry := w.registry.withBuiltin, engines := w.engines ++ [.ofRegistry w.registry latency] }

def run (rs : List Registration) : Workshop := rs.foldl after {}

theorem run_concat (rs : List Registration) (r : Registration) : run (rs ++ [r]) = (run rs).after r :=
  List.foldl_concat ..

/-- Engines that were made stay as they are. -/
theorem engines_append (rs more : List Registration) :
    ∃ new, (run (rs ++ more)).engines = (run rs).engines ++ new := by
  induction more using List.reverseRecOn with
  | nil => exact ⟨[], by simp⟩
  | append_singleton more r ih =>
      obtain ⟨new, h⟩ := ih
      rw [← List.append_assoc, run_concat]
      cases r with
      | engine latency => exact ⟨new ++ [.ofRegistry (run (rs ++ more)).registry latency], by simp [after, h]⟩
      | register | decorate | builtin | clear => exact ⟨new, h⟩

end Workshop

namespace Registry

variable {r : Registry} {es : List (String × Rule)} {name : String}

theorem has_iff : r.has name ↔ name ∈ r.names := by
  simp [has, names]

theorem get_eq (r : Registry) (name : String) : r.get name = match r.rules.lookup name with
    | some rule => .ok rule
    | none => .error (.unknownRule name) := by
  obtain ⟨rules⟩ := r
  rw [get]
  induction rules with
  | nil => rfl
  | cons e rules ih =>
      rw [List.find?_cons, List.lookup_cons]
      by_cases h : e.1 = name
      · simp [h]
      · rw [beq_false_of_ne (Ne.symm h), decide_eq_false h]
        exact ih

/-- The registry has the first rule of every name, in the order of registration. -/
structure Holds (r : Registry) (es : List (String × Rule)) : Prop where
  names : r.names = (es.map (·.1)).eraseDups
  nodup : r.names.Nodup
  lookup : ∀ name, r.rules.lookup name = es.lookup name

theorem Holds.register (h : r.Holds es) (name : String) (rule : Rule) :
    (r.register name rule).Holds (es ++ [(name, rule)]) := by
  have hnames : name ∈ r.names ↔ name ∈ es.map (·.1) := by rw [h.names, List.mem_eraseDups]
  rw [Registry.register]
  by_cases hm : name ∈ r.names
  · rw [if_pos (has_iff.mpr hm)]
    refine ⟨?_, h.nodup, fun k => ?_⟩
    · have hnone : ([name] : List String).removeAll (es.map (·.1)) = [] := by
        simpa [List.removeAll] using hnames.mp hm
      rw [h.names, List.map_append, List.eraseDups_append, List.map_singleton, hnone]
      simp
    · rw [h.lookup, List.lookup_append]
      by_cases hk : k = name
      · obtain ⟨e, he, hn⟩ := List.mem_map.mp (hnames.mp hm)
        have hsome : (es.lookup k).isSome := List.lookup_isSome_iff.mpr ⟨e, he, by simp [hk, hn]⟩
        obtain ⟨found, hf⟩ := Option.isSome_iff_exists.mp hsome
        rw [hf, Option.some_or]
      · simp [List.lookup_cons, beq_false_of_ne hk]
  · rw [if_neg fun hh => hm (has_iff.mp hh)]
    refine ⟨?_, ?_, fun k => ?_⟩
    · have hone : ([name] : List String).removeAll (es.map (·.1)) = [name] := by
        simpa [List.removeAll] using mt hnames.mpr hm
      rw [List.map_append, List.eraseDups_append, List.map_singleton, hone, ← h.names]
      simp [Registry.names, List.eraseDups_cons]
    · rw [Registry.names, List.map_append]
      exact h.nodup.append (List.nodup_singleton name) (by simpa using hm)
    · rw [List.lookup_append, List.lookup_append, h.lookup]

theorem Holds.registerAll (h : r.Holds es) (new : List (String × Rule)) : (r.registerAll new).Holds (es ++ new) := by
  induction new generalizing r es with
  | nil => rwa [List.append_nil]
  | cons e new ih =>
      rw [List.append_cons]
      exact ih (h.register e.1 e.2)

theorem holds_nothing : Holds {} [] := ⟨rfl, List.nodup_nil, fun _ => rfl⟩

theorem Holds.get_eq (h : r.Holds es) (name : String) : r.get name = match es.lookup name with
    | some rule => .ok rule
    | none => .error (.unknownRule name) := by
  rw [Registry.get_eq, h.lookup]

/-- Entries with distinct names are found by their names. -/
theorem filterMap_lookup (es : List (String × Rule)) (h : (es.map (·.1)).Nodup) :
    ((es.map (·.1)).filterMap fun name => es.lookup name) = es.map (·.2) := by
  induction es with
  | nil => rfl
  | cons e es ih =>
      obtain ⟨hn, h⟩ := List.nodup_cons.mp h
      have hrest : ∀ k ∈ es.map (·.1), (e :: es).lookup k = es.lookup k := by
        intro k hk
        have hne : k ≠ e.1 := by
          rintro rfl
          exact hn hk
        rw [List.lookup_cons, beq_false_of_ne hne]
      have hfirst : (e :: es).lookup e.1 = some e.2 := by rw [List.lookup_cons, beq_self_eq_true]
      rw [List.map_cons, List.map_cons, List.filterMap_cons, hfirst, List.filterMap_congr hrest, ih h]

theorem Holds.rules (h : r.Holds es) : r.rules.map (·.2) = Registration.firstRules es := by
  rw [Registration.firstRules, ← h.names, ← filterMap_lookup r.rules h.nodup]
  exact List.filterMap_congr fun name _ => h.lookup name

end Registry

namespace Workshop

open Registration

/-- One step: what is registered comes after what was registered before it. -/
theorem holds_after {w : Workshop} {es : List (String × Rule)} (h : w.registry.Holds es) (r : Registration) :
    (w.after r).registry.Holds (if r.isClear then [] else es ++ r.entries) := by
  cases r with
  | register name rule | decorate name rule => exact h.register name rule
  | builtin | engine => exact h.registerAll Rule.builtin
  | clear => exact Registry.holds_nothing

theorem run_holds (rs : List Registration) : (run rs).registry.Holds (sinceClear rs) := by
  induction rs using List.reverseRecOn with
  | nil => exact Registry.holds_nothing
  | append_singleton rs r ih =>
      rw [run_concat, sinceClear_concat]
      exact holds_after ih r

/-- The engine that a step makes, whatever is done later. -/
theorem run_engine (before after : List Registration) (latency : Pause) :
    (run (before ++ .engine latency :: after)).engines[(run before).engines.length]? =
      some ⟨latency, firstRules (sinceClear (before ++ [.engine latency]))⟩ := by
  obtain ⟨new, h⟩ := engines_append (before ++ [.engine latency]) after
  have hmade := (run_holds (before ++ [.engine latency])).rules
  rw [run_concat] at h hmade
  rw [List.append_cons, h]
  simp only [Workshop.after] at hmade ⊢
  simp [Engine.ofRegistry, hmade]

end Workshop

namespace Engine

variable {id : String} {type : FieldType} {value : Value} {hint : Option Field} {rules : List Rule}

/-- Either all rules answer, or one of them is the first to fail. -/
theorem findingsOf_cases (id : String) (type : FieldType) (value : Value) (hint : Option Field) (rules : List Rule) :
    (∃ found, List.Forall₂ (fun rule fs => rule id type value hint = .ok fs) rules found ∧
        findingsOf id type value hint rules = .ok found.flatten) ∨
      ∃ done rule rest why, rules = done ++ rule :: rest ∧ (∀ x ∈ done, ∃ fs, x id type value hint = .ok fs) ∧
        rule id type value hint = .error why ∧
          findingsOf id type value hint rules = .error (.ruleFailed id why.message) := by
  induction rules with
  | nil => exact .inl ⟨[], .nil, rfl⟩
  | cons rule rules ih =>
      cases hr : rule id type value hint with
      | error why => exact .inr ⟨[], rule, rules, why, rfl, by simp, hr, by simp [findingsOf, hr]⟩
      | ok fs =>
          rcases ih with ⟨found, hf, he⟩ | ⟨done, bad, rest, why, rfl, hdone, hbad, he⟩
          · exact .inl ⟨fs :: found, .cons hr hf, by simp [findingsOf, hr, he, Except.map]⟩
          · refine .inr ⟨rule :: done, bad, rest, why, rfl, ?_, hbad, by simp [findingsOf, hr, he, Except.map]⟩
            exact List.forall_mem_cons.mpr ⟨⟨fs, hr⟩, hdone⟩

/-- An engine with these rules answers with what all of them find, in order, unless one of them fails. -/
structure Judges (e : Engine) (rules : List Rule) (id : String) (type : FieldType) (value : Value)
    (hint : Option Field) : Prop where
  answered : ∀ found, List.Forall₂ (fun rule fs => rule id type value hint = .ok fs) rules found →
    (e.plan id type value hint).answer = .findings found.flatten
  failed : (∃ why, (e.plan id type value hint).answer = .failed why) ↔
    ∃ rule ∈ rules, ∃ why, rule id type value hint = .error why
  /-- The failure names the field, and gives the reason of the first rule that fails. -/
  failure : ∀ why, (e.plan id type value hint).answer = .failed why → ∃ done rule rest reason,
    rules = done ++ rule :: rest ∧ (∀ x ∈ done, ∃ fs, x id type value hint = .ok fs) ∧
      rule id type value hint = .error reason ∧ why = .ruleFailed id reason.message

theorem judges (latency : Pause) (rules : List Rule) (id : String) (type : FieldType) (hint : Option Field)
    (hb : value.isBlank = false) : (Engine.mk latency rules).Judges rules id type value hint := by
  have all {found : List (List Finding)}
      (h : List.Forall₂ (fun rule fs => rule id type value hint = .ok fs) rules found) :
      ∀ rule ∈ rules, ∃ fs, rule id type value hint = .ok fs :=
    ((List.forall₂_and_left rules found).mp (h.imp fun _ fs h => ⟨⟨fs, h⟩, h⟩)).1
  have unique {found found' : List (List Finding)}
      (h : List.Forall₂ (fun rule fs => rule id type value hint = .ok fs) rules found)
      (h' : List.Forall₂ (fun rule fs => rule id type value hint = .ok fs) rules found') : found = found' :=
    Except.ok.inj ((mapM_ok_iff.mpr h).symm.trans (mapM_ok_iff.mpr h'))
  rcases findingsOf_cases id type value hint rules with
    ⟨found, hf, he⟩ | ⟨done, rule, rest, reason, hsplit, hdone, hbad, he⟩
  · have hplan : ((Engine.mk latency rules).plan id type value hint).answer = .findings found.flatten := by
      simp [plan, hb, he]
    refine ⟨fun found' hf' => unique hf hf' ▸ hplan, ⟨?_, ?_⟩, fun why hw => ?_⟩
    · rintro ⟨why, hw⟩
      simp [hplan] at hw
    · rintro ⟨rule, hr, why, hw⟩
      obtain ⟨fs, hfs⟩ := all hf rule hr
      cases hw.symm.trans hfs
    · simp [hplan] at hw
  · have hplan : ((Engine.mk latency rules).plan id type value hint).answer =
        .failed (.ruleFailed id reason.message) := by
      simp [plan, hb, he]
    refine ⟨fun found hf => ?_, ⟨fun _ => ⟨rule, by simp [hsplit], reason, hbad⟩, fun _ => ⟨_, hplan⟩⟩,
      fun why hw => ?_⟩
    · obtain ⟨fs, hfs⟩ := all hf rule (by simp [hsplit])
      cases hbad.symm.trans hfs
    · exact ⟨done, rule, rest, reason, hsplit, hdone, hbad, Answer.failed.inj (hw.symm.trans hplan)⟩

end Engine

open Registration in
/-- After any history of the registry it lists the names registered since it was cleared, each once and in order, and
every name has the rule that was registered first under it. An engine made in the course of the history judges every
value that is not blank by the rules of that moment. -/
theorem first_rules_stay (before after : List Registration) (latency : Pause) :
    (∀ rs, (Workshop.run rs).registry.names = ((sinceClear rs).map (·.1)).eraseDups ∧
      ∀ name, (Workshop.run rs).registry.get name = match (sinceClear rs).lookup name with
        | some rule => .ok rule
        | none => .error (.unknownRule name)) ∧
    ∃ e, (Workshop.run (before ++ .engine latency :: after)).engines[(Workshop.run before).engines.length]? = some e ∧
      ∀ id type value hint, value.isBlank = false →
        (e.plan id type value hint).pause = latency ∧
          e.Judges (firstRules (sinceClear (before ++ [.engine latency]))) id type value hint := by
  refine ⟨fun rs => ⟨(Workshop.run_holds rs).names, (Workshop.run_holds rs).get_eq⟩, _,
    Workshop.run_engine before after latency, fun id type value hint hb => ⟨?_, Engine.judges _ _ id type hint hb⟩⟩
  simp [Engine.plan, hb]

namespace Sample

/-- A rule that finds every value odd, and says so in its words. -/
def odd (words : String) : Rule := fun id _ _ _ => .ok [⟨.info, words, .int 1, "ODD", some id⟩]

/-- The second rule of a name is registered after the first one was forgotten, and a third one comes too late. -/
def beforeEngine : List Registration :=
  [.register "odd" (odd "first"), .clear, .register "odd" (odd "second"), .decorate "odd" (odd "third")]

def afterEngine : List Registration :=
  [.clear, .register "broken" fun _ _ _ _ => .error (.brokenRule "out of order")]

end Sample

theorem first_rules_stay_odd :
    (Workshop.run (Sample.beforeEngine ++ .engine .none :: Sample.afterEngine)).registry.names = ["broken"] ∧
      ∃ e, (Workshop.run (Sample.beforeEngine ++ .engine .none :: Sample.afterEngine)).engines[0]? = some e ∧
        (e.plan "size" .select (.text "XL") none).answer =
          .findings [⟨.info, "second", .int 1, "ODD", some "size"⟩] := by
  obtain ⟨hreg, e, he, hall⟩ := first_rules_stay Sample.beforeEngine Sample.afterEngine .none
  have hrules : Registration.firstRules
      (Registration.sinceClear (Sample.beforeEngine ++ [.engine .none])) =
        [Sample.odd "second", Rule.emailSeparator, Rule.personName, Rule.briefContent, Rule.ageRange] := rfl
  have hjudges := (hall "size" .select (.text "XL") none (by decide)).2
  rw [hrules] at hjudges
  exact ⟨(hreg _).1.trans (by decide), e, he, hjudges.answered [[_], [], [], [], []]
    (.cons rfl (.cons rfl (.cons rfl (.cons rfl (.cons rfl .nil)))))⟩

end Formwork
