import Formwork.Proofs.Settling
import Formwork.Proofs.StaleResults

/-!
Every event brings the fields on: what is due about a field is never lost, and an answer that a field waits
for is taken over.
-/

namespace Formwork

open World Session

variable {r : String → Value → List Finding} {ts : List Transition} {w w' : World} {event : Event}
  {fx : List Effect}

theorem World.Visits.pop {v : Visit} {rest : List Visit} (hv : w.visits = v :: rest) {field : String}
    (h : w.Visits field) (hn : v ≠ .valued field ∧ v ≠ .pausing field) :
    World.Visits { w with visits := rest } field := by
  unfold World.Visits at h
  rw [hv, List.mem_cons, List.mem_cons] at h
  rcases h with (h | h) | (h | h)
  · exact absurd h.symm hn.1
  · exact .inl h
  · exact absurd h.symm hn.2
  · exact .inr h

/-- The walk comes to a field, which does not concern the others. -/
theorem World.Spares.pop {v : Visit} {rest : List Visit} (hv : w.visits = v :: rest) {field : String}
    (hn : v ≠ .valued field ∧ v ≠ .pausing field) : w.Spares { w with visits := rest } field where
  errands e he _ hc := ⟨e, he, rfl, rfl, hc⟩
  form h := .inl h
  visits h := h.pop hv hn

section Steps

variable (h : ∀ c ∈ w.session.slots, c.Settling r ts w) {t : Transition}

include h

/-- The walk comes to a field for which nothing is to be done. -/
theorem settling_passed {v : Visit} {rest : List Visit} (hv : w.visits = v :: rest)
    (hno : ∀ c ∈ w.session.slots, v = .valued c.field.id ∨ v = .pausing c.field.id → c.phase ≠ .debouncing)
    (ht : t.event = .visit) (hfx : t.effects = []) :
    ∀ c ∈ w.session.slots, c.Settling r (ts ++ [t]) { w with visits := rest } := by
  intro c hc
  have untouched : ¬t.Touches c.field.id := Transition.untouched (by simp [ht]) (by simp [hfx])
  by_cases hn : v ≠ .valued c.field.id ∧ v ≠ .pausing c.field.id
  · exact (h c hc).frame (.pop hv hn) untouched
  · refine (h c hc).stay (fun hp => ?_) (fun e he _ hcn => ⟨e, he, rfl, rfl, hcn⟩) untouched
    exact absurd hp (hno c hc (by tauto))

variable (hw : w.Sound)

include hw

theorem settling_visited {v : Visit} {rest : List Visit} (hv : w.visits = v :: rest) (ht : t.event = .visit)
    (hfx : t.effects = (v.step w.session).2) :
    ∀ c ∈ (World.absorb { w with visits := rest } (v.step w.session)).session.slots,
      c.Settling r (ts ++ [t]) (World.absorb { w with visits := rest } (v.step w.session)) := by
  have hn (f : String) (u : Value) : t.event ≠ .edit f u := by
    rw [ht]
    simp
  have hu : World.Sound { w with visits := rest } := hw.with_visits rest
  cases v with
  | valued id =>
      rcases w.session.dispatchIfValued_cases id with ⟨he, hb⟩ | ⟨a, ha, -, he⟩ <;> rw [Visit.step, he] at hfx ⊢
      · rw [World.absorb_nil { w with visits := rest }]
        refine settling_passed h hv (fun c hc hid hp => ?_) ht hfx
        obtain rfl : id = c.field.id := by simpa using hid
        have := (hw.slot c hc).coherent.valued (by rw [hp]; decide)
        rw [hb c (hw.slot?_of_mem hc)] at this
        cases this
      · obtain rfl := slot?_id ha
        rw [dispatch_some ha] at hfx ⊢
        refine Slot.Settling.asked h hu rfl (fun f hne => .pop hv ?_) ha a.timer ?_ ?_ ?_ hfx hn
        · simpa using hne
        · simp
        · exact fun task id k v hs => (Change.starts_request hs).1
        · exact fun k hk => .inr (Change.cancels_request hk)
  | pausing id =>
      rcases w.session.dispatchIfPausing_cases id with ⟨he, hb⟩ | ⟨a, ha, -, he⟩ <;> rw [Visit.step, he] at hfx ⊢
      · rw [World.absorb_nil { w with visits := rest }]
        refine settling_passed h hv (fun c hc hid hp => ?_) ht hfx
        obtain rfl : id = c.field.id := by simpa using hid
        exact hb c (hw.slot?_of_mem hc) hp
      · obtain rfl := slot?_id ha
        rw [dispatch_untimed ha] at hfx ⊢
        refine Slot.Settling.asked h hu rfl (fun f hne => .pop hv ?_) ha none ?_ ?_ ?_ hfx hn
        · simpa using hne
        · simp
        · exact fun task id k v hs => (Change.starts_request ((List.mem_append.mp hs).resolve_left (by simp))).1
        · intro k hk
          rw [List.any_append, Bool.or_eq_true, any_cancels_cancelOf, decide_eq_true_eq] at hk
          exact hk.imp_right Change.cancels_request
  | outcome id o =>
      rcases w.session.recordOutcome_cases id o with he | ⟨a, ha, he⟩ <;> rw [Visit.step, he] at hfx ⊢
      · rw [World.absorb_nil { w with visits := rest }]
        exact settling_passed h hv (fun c _ hid => by simp at hid) ht hfx
      · have spares (f : String) : w.Spares (World.absorb { w with visits := rest }
            (w.session.putSlot { a with structural := o }, [.show ({ a with structural := o } : Slot).state])) f :=
          Spares.trans (.pop hv (by simp)) (.quiet rfl (by simp) f)
        have untouched (f : String) : ¬t.Touches f := Transition.untouched (hn f) (by simp [hfx])
        refine Slot.Settling.put h (b := { a with structural := o }) rfl ?_ fun f _ => ⟨spares f, untouched f⟩
        have hs := (h a (slot?_mem ha)).frame (spares _) (untouched _)
        exact ⟨hs.due, hs.running, hs.answered, hs.idle, hs.touched, hs.strange⟩

end Steps

/-- Every event brings the fields further, as long as the session is open and the evaluator answers. -/
theorem World.Step.settling (hs : w.Step event fx w') (h : ∀ c ∈ w.session.slots, c.Settling r ts w)
    (hw : w.Sound) (hl : Ledger ts w) (hadv : w.session.schema.advisoryEnabled)
    (hopen : w'.session.closed = false) (hr : ∀ field u v, u.eqv v → r field u = r field v)
    (hfair : Transition.Fair r ⟨w, event, fx, w'⟩) :
    ∀ c ∈ w'.session.slots, c.Settling r (ts ++ [⟨w, event, fx, w'⟩]) w' := by
  cases hs with
  | edit id v =>
      obtain ⟨hv, ho⟩ := hfair.edits id v rfl
      rcases w.session.edit_cases id v with ⟨he, hn⟩ | ⟨a, ha, -, he⟩
      · rw [he] at hopen ⊢
        rw [World.absorb_nil] at hopen ⊢
        refine Slot.Settling.unmoved h rfl fun c hc => ⟨.refl w _, Transition.untouched ?_ (by simp)⟩
        rintro u hu
        obtain rfl := (Event.edit.inj hu).1
        rcases hn with hn | hn
        · cases hopen.symm.trans hn
        · cases (hw.slot?_of_mem hc).symm.trans hn
      · obtain rfl := slot?_id ha
        exact Slot.Settling.edited h hw ha hadv he hv (ho a ha)
  | flush hv =>
      refine Slot.Settling.unmoved h rfl fun c hc => ⟨⟨fun e he hj hcn => ?_, fun _ => ?_, ?_⟩, ?_⟩
      · refine ⟨e, mem_absorb_of_mem he ?_, rfl, rfl, hcn⟩
        refine Bool.eq_false_iff.mpr fun hx => ?_
        rw [hw.form_job e he (by simpa [beginFlush] using hx)] at hj
        cases hj
      · exact .inr (.inr (List.mem_map_of_mem (List.mem_map_of_mem hc)))
      · simp [World.Visits, hv]
      · exact Transition.untouched (by simp) (by simp [beginFlush])
  | validateAll outcomes =>
      refine Slot.Settling.unmoved h rfl fun c hc => ⟨⟨fun e he _ hcn => ⟨e, he, rfl, rfl, hcn⟩, .inl, ?_⟩, ?_⟩
      · exact fun hv => hv.imp (List.mem_append_right _) (List.mem_append_right _)
      · exact Transition.untouched (by simp) (by simp)
  | validateNone =>
      exact Slot.Settling.unmoved h rfl fun c _ => ⟨.refl w _, Transition.untouched (by simp) (by simp)⟩
  | close => cases hopen
  | visit v rest hv => exact settling_visited h hw hv rfl rfl
  | «begin» e =>
      exact Slot.Settling.unmoved h rfl fun c _ =>
        ⟨.markBegun w e.id _, Transition.untouched (by simp) (by simp)⟩
  | fieldPauseOver e id hv he hj hb hc =>
      have spares (f : String) (hne : id ≠ f) : w.Spares (w.without e.id) f := by
        refine .without fun x hx hi _ => ?_
        obtain rfl := hw.eq_of_id hx he hi
        rw [hj]
        exact ⟨fun h => hne (Option.some.inj h), by simp⟩
      cases ha : w.session.slot? id with
      | none =>
          have hf : w.session.fieldTimerFires id = (w.session, []) := by simp [fieldTimerFires, ha]
          have hn : (w.without e.id).absorb (w.session, []) = w.without e.id := World.absorb_nil _
          rw [hf, hn]
          refine Slot.Settling.unmoved h rfl fun c hc => ⟨spares _ ?_, Transition.untouched (by simp) (by simp)⟩
          rintro rfl
          cases (hw.slot?_of_mem hc).symm.trans ha
      | some a =>
          obtain rfl := slot?_id ha
          rw [fieldTimerFires_some ha, dispatch_untimed ha]
          refine Slot.Settling.asked h (hw.without e.id) rfl spares ha none (by simp [World.without]) ?_ ?_ rfl (by simp)
          · exact fun task id k v hs => (Change.starts_request hs).1
          · exact fun k hk => .inr (Change.cancels_request hk)
  | formPauseOver e hv he hj =>
      refine Slot.Settling.unmoved h rfl fun c hc => ⟨⟨fun x hx hj' hcn => ?_, fun _ => ?_, ?_⟩, ?_⟩
      · refine ⟨x, mem_without.mpr ⟨hx, fun hi => ?_⟩, rfl, rfl, hcn⟩
        obtain rfl := hw.eq_of_id hx he hi
        rw [hj] at hj'
        cases hj'
      · exact .inr (.inl (List.mem_map_of_mem (List.mem_map_of_mem hc)))
      · simp [World.Visits, hv]
      · exact Transition.untouched (by simp) (by simp)
  | answer e id token requested ending hv he hj =>
      cases ha : w.session.slot? id with
      | none =>
          have hn : (w.without e.id).absorb (w.session, []) = w.without e.id := World.absorb_nil _
          rw [settle_none ha, hn]
          refine Slot.Settling.unmoved h rfl fun c hc =>
            ⟨.without fun x hx hi _ => ?_, Transition.untouched (by simp) (by simp)⟩
          obtain rfl := hw.eq_of_id hx he hi
          rw [hj]
          refine ⟨fun hid => ?_, by simp⟩
          obtain rfl := Option.some.inj hid
          cases (hw.slot?_of_mem hc).symm.trans ha
      | some a =>
          obtain rfl := slot?_id ha
          obtain ⟨x, hx, hreq⟩ := hl.origin e he _ _ _ hj
          exact Slot.Settling.settled h hw ha he hj (settle_some ha ..) hr
            (hfair.answers e he _ _ _ ending hj rfl) ⟨x, hx, .inr ⟨_, _, _, hreq⟩⟩ rfl rfl
  | vanish e hv he hc =>
      refine Slot.Settling.unmoved h rfl fun c _ =>
        ⟨.without fun x hx hi hn => ?_, Transition.untouched (by simp) (by simp)⟩
      obtain rfl := hw.eq_of_id hx he hi
      rw [hc] at hn
      cases hn
  | otherTask =>
      refine Slot.Settling.unmoved h rfl fun c _ => ⟨?_, Transition.untouched (by simp) (by simp)⟩
      exact ⟨fun e he _ hcn => ⟨e, he, rfl, rfl, hcn⟩, .inl, fun hv => hv⟩

theorem Slot.Fresh.settling {c : Slot} (h : c.Fresh) (w : World) : c.Settling r [] w where
  due hp := by rw [h.phase] at hp; cases hp
  running hp := by rw [h.phase] at hp; cases hp
  answered hp := by rw [h.phase] at hp; cases hp
  idle _ := .inr (by simp)
  touched hp := absurd h.phase hp
  strange _ := ⟨by simp, h.resolved⟩

theorem History.settling (h : History ts w) (hadv : w.session.schema.advisoryEnabled)
    (hopen : w.session.closed = false) (hr : ∀ field u v, u.eqv v → r field u = r field v)
    (hfair : ∀ t ∈ ts, t.Fair r) : ∀ c ∈ w.session.slots, c.Settling r ts w := by
  induction h with
  | opened hs =>
      obtain ⟨-, -, hf⟩ := hs.fresh
      exact fun c hc => (hf.slots c hc).settling _
  | @step ts w w' event fx hh hs ih =>
      rw [hs.alike.advisoryEnabled] at hadv
      have hcl : w.session.closed = false := by
        refine Bool.eq_false_iff.mpr fun hc => ?_
        rw [hs.alike.closed hc] at hopen
        cases hopen
      have ih := ih hadv hcl fun t ht => hfair t (List.mem_append_left _ ht)
      exact hs.settling ih hh.sound hh.ledger hadv hopen hr
        (hfair _ (List.mem_append_right _ (List.mem_singleton_self _)))

end Formwork
