import Formwork.Proofs.Checks
import Formwork.Service

/-!
A service that has started serves the same forms all the time, and every form that it serves has its validator.
-/

namespace Formwork

namespace ValidatorCache

variable {c d : ValidatorCache} {s : Schema} {v : Validator}

/-- Every validator that is kept is one of a schema without defects. -/
def Sound (c : ValidatorCache) : Prop := ∀ e ∈ c.entries, Validator.ofSchema e.1 = .ok e.2

/-- What the cache gives is the validator of its own schema, and so is all that it keeps then. -/
theorem Sound.get (h : c.Sound) (hg : c.get s = .ok (v, d)) : Validator.ofSchema v.schema = .ok v ∧ d.Sound := by
  unfold ValidatorCache.get at hg
  split at hg
  · cases hg
  · split at hg
    · next u hf =>
        cases hg
        obtain ⟨e, he, rfl⟩ := Option.map_eq_some_iff.mp hf
        have hv := h e (List.mem_of_find?_eq_some he)
        exact ⟨(Validator.ofSchema_schema hv).symm ▸ hv, h⟩
    · cases hv : Validator.ofSchema s with
      | error e => simp [hv, Except.map] at hg
      | ok u =>
          simp only [hv, Except.map, Except.ok.injEq, Prod.mk.injEq] at hg
          obtain ⟨rfl, rfl⟩ := hg
          refine ⟨(Validator.ofSchema_schema hv).symm ▸ hv, fun e he => ?_⟩
          rcases List.mem_append.mp he with he | he
          · exact h e he
          · rw [List.mem_singleton.mp he]
            exact hv

end ValidatorCache

namespace Serving

variable {s t : Serving} {form : Schema} {v : Validator}

theorem prepare_sound (h : s.validators.Sound) (hp : s.prepare form = .ok t) : t.validators.Sound := by
  unfold prepare at hp
  split at hp
  · next u d hg =>
      cases hp
      exact (h.get hg).2
  · cases hp
    exact h
  · cases hp

theorem start_sound {config : Config} {files : Files} (h : start config files = .ok s) : s.validators.Sound := by
  have key (forms : List Schema) (r : Serving) (hr : r.validators.Sound) (hs : forms.foldlM prepare r = .ok s) :
      s.validators.Sound := by
    induction forms generalizing r with
    | nil => exact Except.ok.inj hs ▸ hr
    | cons form forms ih =>
        rw [List.foldlM_cons] at hs
        obtain ⟨t, hp, hs⟩ := bind_ok.mp hs
        exact ih t (prepare_sound hr hp) hs
  obtain ⟨issues, -, h⟩ := bind_ok.mp h
  obtain ⟨library, -, h⟩ := bind_ok.mp h
  exact key library.forms { library, engine := config.engine } (fun e he => by cases he) h

/-- A form that is served has no defect. -/
theorem form_compiled (h : s.validators.Sound) {id : String} (hf : s.form id = .ok v) :
    Validator.ofSchema v.schema = .ok v := by
  unfold Serving.form at hf
  split at hf
  · cases hf
  · cases hf
  · next form _ _ =>
      cases hg : s.validators.get form with
      | error e => simp [hg, Except.map] at hf
      | ok r =>
          simp only [hg, Except.map, Except.ok.injEq] at hf
          obtain ⟨u, d⟩ := r
          cases hf
          exact (h.get hg).1

end Serving

namespace Service

variable {s t : Service} {id : String} {v : Validator}

/-- The service with other rules for its advice. -/
def withEngine (s : Service) (engine : Engine) : Service :=
  { s with serving := s.serving.map fun serving => { serving with engine } }

/-- The service after some requests. -/
def after (s : Service) (requests : List Request) : Service := requests.foldl (fun s request => (s.answer request).1) s

theorem timed_serving (s : Service) (id : String) (f : Engine → Nat → Validator → Nat × Except Fault Reply) :
    (s.timed id f).1.serving = s.serving := by
  unfold timed
  split <;> rfl

/-- A request changes nothing about the forms, their validators and the rules. -/
theorem answer_serving (s : Service) (request : Request) : (s.answer request).1.serving = s.serving := by
  cases request with
  | list | get | fieldTypes | suggest => rfl
  | validate | submit => exact timed_serving s _ _

theorem after_serving (s : Service) (requests : List Request) : (s.after requests).serving = s.serving := by
  induction requests generalizing s with
  | nil => rfl
  | cons request requests ih => exact (ih _).trans (s.answer_serving request)

theorem form_congr (h : t.serving = s.serving) (id : String) : t.form id = s.form id := by
  unfold form running
  rw [h]

/-- What a request about a served form is answered with. -/
theorem timed_served {serving : Serving} (hs : s.serving = some serving) (hv : s.form id = .ok v)
    (f : Engine → Nat → Validator → Nat × Except Fault Reply) :
    (s.timed id f).2 = (f serving.engine s.now v).2 := by
  have hrunning : s.running = .ok serving := by rw [running, hs]
  rw [timed, hrunning, hv]

/-- A form that is served is served by a service that has started. -/
theorem form_ok (hv : s.form id = .ok v) : ∃ serving, s.serving = some serving ∧ serving.form id = .ok v := by
  cases hs : s.serving with
  | none => simp [form, running, hs, bind, Except.bind] at hv
  | some serving =>
      by_cases hz : serving.validators.size = 0
      · simp [form, running, hs, hz, bind, Except.bind, throw, throwThe, MonadExceptOf.throw] at hv
      · simp only [form, running, hs, hz, bind, Except.bind, if_false] at hv
        exact ⟨serving, rfl, hv⟩

theorem form_withEngine (s : Service) (engine : Engine) (id : String) : (s.withEngine engine).form id = s.form id := by
  cases hs : s.serving with
  | none => simp [form, running, withEngine, hs, bind, Except.bind]
  | some serving => simp [form, running, withEngine, hs, bind, Except.bind, Serving.form]

/-- The validator of a form that a started service serves. -/
theorem form_compiled {env : Environment} {files : Files} (hs : start env files = .ok s) (hv : s.form id = .ok v) :
    Validator.ofSchema v.schema = .ok v := by
  obtain ⟨serving, hserving, hform⟩ := form_ok hv
  refine Serving.form_compiled ?_ hform
  obtain ⟨config, -, hs⟩ := bind_ok.mp hs
  obtain ⟨started, hstart, hs⟩ := bind_ok.mp hs
  cases hs
  obtain rfl := Option.some.inj hserving
  exact Serving.start_sound hstart

end Service
end Formwork
