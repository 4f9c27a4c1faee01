import Formwork.Proofs.FormTimer
import Formwork.Proofs.Rechecks

/-!
From an edit until its pause is over, the field pauses and shows its last result, and the answers to earlier requests
change nothing. Only a field that gets a value equal to the one under evaluation takes over the answer all the same.
-/

namespace Formwork

open World Session

namespace World

namespace Transition

/-- A value is taken over that is to be evaluated after a pause. -/
def Pauses (t : Transition) (field : String) (v : Value) : Prop :=
  t.event = .edit field v ∧ v.isBlank = false ∧ ∃ state, (t.before.session.edit field v).2 = .ok state

/-- The timer of the field's pause goes off, a flush comes to the field, or the field is edited again. -/
def EndsPause (t : Transition) (field : String) (timer : Nat) : Prop :=
  t.event = .pauseOver timer ∨ (t.event = .visit ∧ ∃ rest, t.before.visits = .pausing field :: rest) ∨ t.Edits field

/-- The last request of the field is answered in a pause in which the field has a value equal to the one that is
evaluated. -/
def Reenters (t : Transition) (field : String) (token : Nat) (v : Value) (ending : Ending) : Prop :=
  ending ≠ .cancelled ∧ ∃ task requested a, t.Ends field task token requested ending ∧
    t.before.session.slot? field = some a ∧ a.phase = .debouncing ∧ a.token = token ∧ a.value = v ∧ v.eqv requested

end Transition

/-- What an event does to a field and its timer, if every field is evaluated on its own. -/
inductive Times (w : World) (a : Slot) (event : Event) (b : Slot) : Prop
  | edited (v : Value) (he : event = .edit a.field.id v) (hc : w.session.closed = false)
      (hp : b.phase = .debouncing ∨ b.timer = none ∨ b.timer = a.timer ∧ b.phase = a.phase)
  | ended (timer : b.timer = none)
      (he : (∃ e ∈ w.errands, e.job = .fieldTimer a.field.id ∧ e.cancelled = false ∧ event = .pauseOver e.id) ∨
        event = .visit ∧ ∃ rest, w.visits = .pausing a.field.id :: rest)
  | kept (value : b.value = a.value) (timer : b.timer = a.timer) (token : b.token = a.token) (phase : b.phase = a.phase)
      (advisory : b.advisory = a.advisory) (resolved : b.resolved = a.resolved)
  | answered (e : Errand) (requested : Value) (ending : Ending) (he : event = .answer e.id ending) (hm : e ∈ w.errands)
      (hj : e.job = .evaluation a.field.id a.token requested) (hv : a.value.eqv requested) (hn : ending ≠ .cancelled)
      (value : b.value = a.value) (timer : b.timer = a.timer) (token : b.token = a.token) (reached : a.Reached b ending)

variable {w w' : World} {event : Event} {fx : List Effect} {a b c : Slot} {field : String}

theorem Alters.times (h : w.Alters a event fx b) (hv : ∀ id, .valued id ∉ w.visits) : w.Times a event b := by
  cases h with
  | same => exact .kept rfl rfl rfl rfl rfl rfl
  | broken v _ hc => exact .edited v rfl hc (.inr (.inr ⟨rfl, rfl⟩))
  | cleared v _ hc | unadvised v _ hc => exact .edited v rfl hc (.inr (.inl rfl))
  | pausedAlone v _ hc | pausedTogether v _ hc => exact .edited v rfl hc (.inl rfl)
  | timerFired e he hj hc => exact .ended rfl (.inl ⟨e, he, hj, hc, rfl⟩)
  | flushed rest hp => exact .ended rfl (.inr ⟨rfl, rest, hp⟩)
  | gathered rest hp => exact absurd (hp ▸ List.mem_cons_self) (hv _)
  | dropped e =>
      obtain ⟨htimer, hvalue, htoken, hphase, hadvisory, hresolved⟩ := forget_same a e.id
      exact .kept hvalue htimer htoken hphase hadvisory hresolved
  | committed e requested found he hj hq =>
      obtain ⟨htimer, hvalue, htoken, -⟩ := forget_same a e.id
      exact .answered e requested (.findings found) rfl he hj hq (by simp) hvalue htimer htoken ⟨rfl, rfl, rfl⟩
  | fellBack e requested he hj hq =>
      obtain ⟨htimer, hvalue, htoken, -, -, hresolved⟩ := forget_same a e.id
      refine .answered e requested .failed rfl he hj hq (by simp) hvalue htimer htoken ⟨hresolved, hresolved, ?_⟩
      rw [Slot.fellBack, hresolved]
  | recorded => exact .kept rfl rfl rfl rfl rfl rfl

/-! ## Fields that are evaluated on their own -/

/-- No pause of the form goes on, and no walk over the fields with values either. -/
structure Fieldwise (w : World) : Prop where
  formTimer : w.session.formTimer = none
  visits : ∀ id, .valued id ∉ w.visits

theorem Step.fieldwise (hs : w.Step event fx w') (h : Fieldwise w) (hw : w.Single) (hm : w.session.mode = .field) :
    Fieldwise w' := by
  cases hs with
  | edit id v =>
      refine ⟨?_, h.visits⟩
      rcases w.session.edit_cases id v with ⟨he, -⟩ | ⟨a, -, -, he⟩
      · rw [absorb, he]
        exact h.formTimer
      · rw [absorb]
        generalize (w.session.edit id v).1 = r at he
        cases he with
        | pausedTogether _ _ _ _ hform => cases hm.symm.trans hform
        | _ => exact h.formTimer
  | flush => exact ⟨rfl, by simp [absorb]⟩
  | validateAll => exact ⟨h.formTimer, by simpa using h.visits⟩
  | validateNone | close | «begin» | vanish | otherTask => exact ⟨h.formTimer, h.visits⟩
  | visit v rest hv =>
      exact ⟨(v.step_formTimer _).trans h.formTimer, fun id hi => h.visits id (hv ▸ List.mem_cons_of_mem v hi)⟩
  | fieldPauseOver e id => exact ⟨(fieldTimerFires_formTimer _ id).trans h.formTimer, h.visits⟩
  | formPauseOver e _ he hj _ hc => cases h.formTimer.symm.trans (hw e he hj hc)
  | answer e id token requested ending => exact ⟨(settle_formTimer ..).trans h.formTimer, h.visits⟩

/-- The last request of a field runs only as long as the field waits for the answer or pauses again. -/
theorem Step.asked (hs : w.Step event fx w') (hw : w.Sound)
    (h : ∀ a ∈ w.session.slots, ∀ e ∈ w.errands, ∀ v, e.job = .evaluation a.field.id a.token v →
      a.phase = .pending ∨ a.phase = .debouncing)
    (hb : w'.session.slot? field = some b) {x : Errand} (hx : x ∈ w'.errands) {v : Value}
    (hj : x.job = .evaluation field b.token v) : b.phase = .pending ∨ b.phase = .debouncing := by
  obtain ⟨a, ha, rfl, halt⟩ := hs.alters_of_after hb
  -- an evaluation that is not new ran under the token that the field still has
  have old (quiet : ∀ task token v, Effect.start task (.evaluation a.field.id token v) ∉ fx) :
      ∃ e ∈ w.errands, e.job = .evaluation a.field.id b.token v := by
    rcases hs.errand hx with ⟨e, he, hl⟩ | hstart
    · exact ⟨e, he, hl.job.symm.trans hj⟩
    · exact absurd (hj ▸ hstart) (quiet _ _ _)
  have kept (quiet : ∀ task token v, Effect.start task (.evaluation a.field.id token v) ∉ fx)
      (htoken : b.token = a.token) (hphase : b.phase = a.phase) : b.phase = .pending ∨ b.phase = .debouncing := by
    obtain ⟨e, he, hj⟩ := old quiet
    rw [hphase]
    exact h a (slot?_mem ha) e he v (htoken ▸ hj)
  have answered (htoken : b.token = a.token) {e : Errand} {requested : Value} {ending : Ending} (he : e ∈ w.errands)
      (hev : event = .answer e.id ending) (hk : e.job = .evaluation a.field.id a.token requested) : False := by
    have hend : Transition.Ends ⟨w, event, fx, w'⟩ a.field.id e.id a.token requested ending := ⟨hev, e, he, rfl, hk⟩
    exact hend.gone hs hw x hx v (htoken ▸ hj)
  cases halt with
  | same quiet => exact kept quiet rfl rfl
  | broken => exact kept (by simp) rfl rfl
  | cleared =>
      obtain ⟨e, he, hj⟩ := old (by simp)
      exact absurd ((hw.slot a (slot?_mem ha)).token_le e he _ v hj) (Nat.not_succ_le_self a.token)
  | unadvised => exact kept (by simp) rfl rfl
  | pausedAlone | pausedTogether => exact .inr rfl
  | timerFired | flushed | gathered => exact .inl rfl
  | dropped e =>
      obtain ⟨-, -, htoken, hphase, -⟩ := forget_same a e.id
      exact kept (by simp) htoken hphase
  | committed e requested found he hk => exact (answered (forget_same a e.id).2.2.1 he rfl hk).elim
  | fellBack e requested he hk => exact (answered (forget_same a e.id).2.2.1 he rfl hk).elim
  | recorded => exact kept (by simp) rfl rfl

end World

/-! ## Histories -/

section

variable {ts mid : List Transition} {w w' : World} {event : Event} {fx : List Effect} {t : Transition} {a b c : Slot}
  {field : String} {k : Nat} {v : Value}

theorem History.fieldwise (h : History ts w) (hm : w.session.mode = .field) : w.Fieldwise := by
  induction h with
  | opened hs =>
      obtain ⟨-, -, hf⟩ := hs.fresh
      exact ⟨hf.formTimer, by simp⟩
  | step hh hs ih =>
      have hm := hs.alike.mode ▸ hm
      exact hs.fieldwise (ih hm) hh.single hm

theorem History.asked (h : History ts w) : ∀ a ∈ w.session.slots, ∀ e ∈ w.errands, ∀ v,
    e.job = .evaluation a.field.id a.token v → a.phase = .pending ∨ a.phase = .debouncing := by
  induction h with
  | opened hs => exact fun a ha e he => by cases he
  | step hh hs ih =>
      exact fun b hb e he v hj => hs.asked hh.sound ih ((hs.sound hh.sound).slot?_of_mem hb) he hj

/-- A field in the pause after an edit, as its slot was before the edit and is now. It has the value and shows its last
result, unless its last request was answered, which was made for an equal value. -/
structure Slot.Pausing (mid : List Transition) (a : Slot) (timer : Nat) (v : Value) (c : Slot) : Prop where
  value : c.value = v
  timer : c.timer = some timer
  token : c.token = a.token
  shown : (c.phase = .debouncing ∧ c.advisory = a.resolved ∧ c.resolved = a.resolved) ∨
    ∃ t ∈ mid, ∃ ending, t.Reenters c.field.id a.token v ending ∧ a.Reached c ending

namespace Slot.Reached

variable {ending : Ending}

theorem of_resolved (h : c.Reached b ending) (hn : ending ≠ .cancelled) (hr : c.resolved = a.resolved) :
    a.Reached b ending := by
  cases ending with
  | findings => exact h
  | failed =>
      rw [Slot.Reached, ← hr]
      exact h
  | cancelled => exact absurd rfl hn

theorem same (h : a.Reached b ending) (phase : c.phase = b.phase) (advisory : c.advisory = b.advisory)
    (resolved : c.resolved = b.resolved) : a.Reached c ending := by
  cases ending with
  | findings | failed =>
      rw [Slot.Reached, phase, advisory, resolved]
      exact h
  | cancelled => exact h

theorem not_waiting (h : a.Reached b ending) (hn : ending ≠ .cancelled) : ¬(b.phase = .pending ∨ b.phase = .debouncing) := by
  cases ending with
  | findings => simp [h.1]
  | failed =>
      rw [h.2.2]
      split <;> simp
  | cancelled => exact absurd rfl hn

end Slot.Reached

/-- The pause goes on after every event that does not end it. -/
theorem Slot.Pausing.step (h : a.Pausing mid k v c) (hs : w.Step event fx w') (hw : w.Sound) (hf : w.Fieldwise)
    (hasked : ∀ e ∈ w.errands, ∀ u, e.job = .evaluation c.field.id c.token u →
      c.phase = .pending ∨ c.phase = .debouncing)
    (hc : w.session.slot? c.field.id = some c) (hend : ¬Transition.EndsPause ⟨w, event, fx, w'⟩ c.field.id k) :
    ∃ d, w'.session.slot? c.field.id = some d ∧ a.Pausing (mid ++ [⟨w, event, fx, w'⟩]) k v d := by
  obtain ⟨d, hd, halt⟩ := hs.alters hc
  have hfield := halt.field_eq
  refine ⟨d, hd, ?_⟩
  cases halt.times hf.visits with
  | edited u he hcl => exact absurd (.inr (.inr ⟨hcl, u, he⟩)) hend
  | ended _ he =>
      refine absurd ?_ hend
      rcases he with ⟨e, he, hj, hcan, rfl⟩ | he
      · have htimer := (hw.slot c (slot?_mem hc)).ticking e he hj hcan
        rw [h.timer, Option.some.injEq] at htimer
        exact .inl (htimer ▸ rfl)
      · exact .inr (.inl he)
  | kept value timer token phase advisory resolved =>
      refine ⟨value.trans h.value, timer.trans h.timer, token.trans h.token, ?_⟩
      rw [hfield]
      refine h.shown.imp (fun hshown => by rwa [phase, advisory, resolved]) ?_
      rintro ⟨t, ht, ending, hre, hreached⟩
      exact ⟨t, List.mem_append_left _ ht, ending, hre, hreached.same phase advisory resolved⟩
  | answered e requested ending he hm hj hv hn value timer token hreached =>
      refine ⟨value.trans h.value, timer.trans h.timer, token.trans h.token, .inr ?_⟩
      rw [hfield]
      rcases h.shown with ⟨hphase, -, hresolved⟩ | ⟨t, ht, ending', ⟨hn', -⟩, hover⟩
      · refine ⟨_, List.mem_append_right _ (List.mem_singleton_self _), ending, ⟨hn, e.id, requested, c, ?_, hc, hphase,
          h.token, h.value, h.value ▸ hv⟩, hreached.of_resolved hn hresolved⟩
        exact ⟨he, e, hm, rfl, h.token ▸ hj⟩
      · exact absurd (hasked e hm requested hj) (hover.not_waiting hn')

/-- An edit begins a pause, in which the field shows its last result. -/
theorem Session.edit_paused {s : Session} {state : FieldState} (h : (s.edit field v).2 = .ok state)
    (hb : v.isBlank = false) (hm : s.mode = .field) (hadv : s.schema.advisoryEnabled) :
    ∃ a o, s.slot? field = some a ∧ (s.edit field v).1.1.slot? field = some (a.paused v o (some s.nextTask)) := by
  obtain ⟨a, o, ha, ho, he⟩ := edit_taken h
  obtain rfl := slot?_id ha
  refine ⟨a, o, ha, ?_⟩
  generalize (s.edit a.field.id v).1 = r at he
  cases he with
  | broken _ hbroken => cases ho.symm.trans hbroken
  | cleared _ _ hblank => cases hb.symm.trans hblank
  | unadvised _ _ _ hoff => cases hadv.symm.trans hoff
  | pausedAlone o' ho' =>
      obtain rfl := Except.ok.inj (ho.symm.trans ho')
      exact slot?_putSlot_self (b := a.paused v o (some s.nextTask)) ha
  | pausedTogether _ _ _ _ hform => cases hm.symm.trans hform

theorem History.pausing (h : History ts w) (hm : w.session.mode = .field) (hadv : w.session.schema.advisoryEnabled)
    {pre : List Transition} (hl : ts = pre ++ t :: mid) (hp : t.Pauses field v)
    (hend : ∀ x ∈ mid, ¬x.EndsPause field t.before.session.nextTask) :
    ∃ a c, t.before.session.slot? field = some a ∧ w.session.slot? field = some c ∧
      a.Pausing mid t.before.session.nextTask v c := by
  induction h generalizing mid with
  | opened => simp at hl
  | @step ts w w' event fx hh hs ih =>
      have hm := hs.alike.mode ▸ hm
      have hadv := hs.alike.advisoryEnabled ▸ hadv
      rcases mid.eq_nil_or_concat with rfl | ⟨mid, u, rfl⟩
      · obtain ⟨rfl, ht⟩ := List.append_inj' hl rfl
        obtain rfl : ⟨w, event, fx, w'⟩ = t := by simpa using ht
        obtain ⟨rfl, hb, state, hstate⟩ := hp
        obtain ⟨a, o, ha, hc⟩ := Session.edit_paused hstate hb hm hadv
        cases hs
        exact ⟨a, _, ha, hc, rfl, rfl, rfl, .inl ⟨rfl, rfl, rfl⟩⟩
      · rw [List.concat_eq_append] at hl hend ⊢
        obtain ⟨hts, hu⟩ := List.append_inj' (hl.trans (List.append_assoc pre (t :: mid) [u]).symm) rfl
        obtain rfl := List.singleton_inj.mp hu
        obtain ⟨a, c, ha, hc, hpausing⟩ := ih hm hadv hts fun x hx => hend x (List.mem_append_left _ hx)
        obtain rfl := slot?_id hc
        have hlast := hend _ (List.mem_append_right _ (List.mem_singleton_self _))
        obtain ⟨d, hd, hnext⟩ := hpausing.step hs hh.sound (hh.fieldwise hm) (hh.asked c (slot?_mem hc)) hc hlast
        exact ⟨a, d, ha, hd, hnext⟩

/-! ## Timers and results -/

/-- The field of a timer pauses, unless its last request was answered in the pause. -/
theorem History.timed (h : History ts w) (hm : w.session.mode = .field) : ∀ c ∈ w.session.slots, ∀ k,
    c.timer = some k → c.phase = .debouncing ∨ ∃ t ∈ ts, ∃ a ending, t.before.session.slot? c.field.id = some a ∧
      a.timer = some k ∧ t.Reenters c.field.id a.token a.value ending := by
  induction h with
  | opened hs =>
      obtain ⟨-, -, hf⟩ := hs.fresh
      intro c hc k hk
      cases (hf.slots c hc).timer.symm.trans hk
  | @step ts w w' event fx hh hs ih =>
      intro b hb k hk
      have hm := hs.alike.mode ▸ hm
      obtain ⟨a, ha, hid, halt⟩ := hs.alters_of_after ((hs.sound hh.sound).slot?_of_mem hb)
      rw [← hid] at ha ⊢
      have ih := ih hm a (slot?_mem ha) k
      have before (hk : a.timer = some k) (hp : b.phase = a.phase) : b.phase = .debouncing ∨
          ∃ t ∈ ts ++ [⟨w, event, fx, w'⟩], ∃ c ending, t.before.session.slot? a.field.id = some c ∧
            c.timer = some k ∧ t.Reenters a.field.id c.token c.value ending :=
        (ih hk).imp hp.trans fun ⟨t, ht, hrest⟩ => ⟨t, List.mem_append_left _ ht, hrest⟩
      cases halt.times (hh.fieldwise hm).visits with
      | edited v he hc hp =>
          rcases hp with hp | hnone | ⟨htimer, hp⟩
          · exact .inl hp
          · cases hnone.symm.trans hk
          · exact before (htimer ▸ hk) hp
      | ended hnone => cases hnone.symm.trans hk
      | kept _ timer _ phase => exact before (timer ▸ hk) phase
      | answered e requested ending he hmem hj hv hn _ timer =>
          rw [timer] at hk
          refine .inr ?_
          rcases ih hk with hp | ⟨t, ht, hrest⟩
          · exact ⟨_, List.mem_append_right _ (List.mem_singleton_self _), a, ending, ha, hk, hn, e.id, requested, a,
              ⟨he, e, hmem, rfl, hj⟩, ha, hp, rfl, rfl, hv⟩
          · exact ⟨t, List.mem_append_left _ ht, hrest⟩

theorem World.Alters.resolves (h : w.Alters a event fx b) (hb : b.phase = .resolved) :
    a.phase = .resolved ∨ ∃ e ∈ w.errands, ∃ requested ending, event = .answer e.id ending ∧
      e.job = .evaluation a.field.id a.token requested ∧ a.value.eqv requested ∧ ending ≠ .cancelled := by
  cases h with
  | same | broken | unadvised | recorded => exact .inl hb
  | cleared | pausedAlone | pausedTogether | timerFired | flushed | gathered => cases hb
  | dropped e => exact .inl ((forget_same a e.id).2.2.2.1.symm.trans hb)
  | committed e requested found he hj hv => exact .inr ⟨e, he, requested, _, rfl, hj, hv, by simp⟩
  | fellBack e requested he hj hv => exact .inr ⟨e, he, requested, _, rfl, hj, hv, by simp⟩

theorem History.resolves (h : History ts w) (ht : t ∈ ts) (ha : t.before.session.slot? field = some a)
    (hb : t.after.session.slot? field = some b) (hp : b.phase = .resolved) :
    a.phase = .resolved ∨ a.phase = .pending ∨ ∃ ending, t.Reenters field a.token a.value ending := by
  obtain ⟨us, vs, rfl⟩ := List.append_of_mem ht
  obtain ⟨hbefore, hs, -⟩ := h.prefix_step
  obtain rfl := slot?_id ha
  obtain ⟨c, hc, halt⟩ := hs.alters ha
  obtain rfl := Option.some.inj (hb.symm.trans hc)
  refine (halt.resolves hp).imp_right ?_
  rintro ⟨e, he, requested, ending, hev, hj, hv, hn⟩
  refine (hbefore.asked a (slot?_mem ha) e he requested hj).imp_right fun hdeb => ?_
  exact ⟨ending, hn, e.id, requested, a, ⟨hev, e, he, rfl, hj⟩, ha, hdeb, rfl, rfl, hv⟩

/-- What an edit means for the requests before it. -/
structure Supersession (ts : List Transition) (w : World) : Prop where
  /-- The pause after an edit goes on until its timer goes off, a flush comes to the field or the field is edited again;
  answers that come in the meantime change nothing. -/
  pausing : ∀ pre t mid, ts = pre ++ t :: mid → ∀ field v, t.Pauses field v →
    (∀ x ∈ mid, ¬x.EndsPause field t.before.session.nextTask) →
      ∃ a c, t.before.session.slot? field = some a ∧ w.session.slot? field = some c ∧
        a.Pausing mid t.before.session.nextTask v c
  /-- A field with a result had one, or was pending. -/
  resolved : ∀ t ∈ ts, ∀ field a b, t.before.session.slot? field = some a → t.after.session.slot? field = some b →
    b.phase = .resolved →
      a.phase = .resolved ∨ a.phase = .pending ∨ ∃ ending, t.Reenters field a.token a.value ending
  /-- A field whose timer may still go off pauses. -/
  ticking : ∀ c ∈ w.session.slots, ∀ e ∈ w.errands, e.job = .fieldTimer c.field.id → e.cancelled = false →
    c.phase = .debouncing ∨ ∃ t ∈ ts, ∃ a ending, t.before.session.slot? c.field.id = some a ∧
      a.timer = some e.id ∧ t.Reenters c.field.id a.token a.value ending

/-- An edit supersedes the requests before it, unless the last one was made for a value that is equal to the new one. -/
theorem edit_supersedes (h : History ts w) (hm : w.session.mode = .field)
    (hadv : w.session.schema.advisoryEnabled) : Supersession ts w where
  pausing _ _ _ hl _ _ hp hend := h.pausing hm hadv hl hp hend
  resolved _ ht _ _ _ ha hb hp := h.resolves ht ha hb hp
  ticking c hc e he hj hcan := h.timed hm c hc e.id ((h.sound.slot c hc).ticking e he hj hcan)

end

/-! ## A name that is entered again -/

namespace Sample

/-- A name is entered, and once more while it is evaluated; then the evaluation answers. -/
def againEvents : List Event :=
  [.edit "name" (.text "Al"), .begin 0, .pauseOver 0, .begin 1, .edit "name" (.text "Al"), .begin 2,
    .answer 1 (.findings [])]

theorem againEvents_possible : (World.run? { session := profile } againEvents).isSome := by decide +kernel

def againRun : List Transition × World := (World.run? { session := profile } againEvents).get againEvents_possible

end Sample

/-- Two names are entered, and the answer for the first one changes nothing. -/
theorem edit_supersedes_sample :
    Sample.run.2.session.mode = .field ∧ Sample.run.2.session.schema.advisoryEnabled ∧
      Supersession Sample.run.1 Sample.run.2 := by
  have hmode : Sample.run.2.session.mode = .field := by decide +kernel
  have hadvice : Sample.run.2.session.schema.advisoryEnabled := by decide +kernel
  exact ⟨hmode, hadvice, edit_supersedes Sample.history hmode hadvice⟩

/-- A name that is entered again is resolved by the answer for the first one, although its timer still runs. -/
theorem reentered_name_resolved : ∃ ts w, History ts w ∧ w.session.closed = false ∧ w.session.mode = .field ∧
    w.session.schema.advisoryEnabled ∧ (w.session.slot? "name").map (·.phase) = some .resolved ∧
      w.errands.map (fun e => (e.id, e.job.field?, e.cancelled)) = [(2, some "name", false)] ∧
        (w.session.slot? "name").map (·.timer) = some (some 2) :=
  ⟨Sample.againRun.1, Sample.againRun.2, Sample.profile_opened.history Sample.againEvents_possible, by decide +kernel,
    by decide +kernel, by decide +kernel, by decide +kernel, by decide +kernel, by decide +kernel⟩

end Formwork
