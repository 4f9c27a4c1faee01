import Formwork.Proofs.Gatherings

/-!
Nobody is forgotten: every task that has not ended has its place on the agenda, among the turns to come, with an alarm, or
with a gathering that is not complete.
-/

namespace Formwork

namespace Agenda

variable {a b : Agenda} {running : Option Nat} {id : Nat} {t u : Task}

/-- What is to become of a task stands on the agenda. -/
structure Placed (a : Agenda) (running : Option Nat) (t : Task) : Prop where
  due : t.stage = .fresh ∨ t.stage = .awake → t.id ∈ a.due running
  asleep : t.stage = .asleep → ∃ x ∈ a.alarms, x.task = t.id
  gathering : ∀ g, t.stage = .gathering g → ∃ r ∈ a.gatherings, r.id = g ∧ r.waiter = t.id ∧ 0 < r.left

def Wakeful (a : Agenda) (running : Option Nat) : Prop := ∀ t ∈ a.tasks, a.Placed running t

/-! ## The place of a task -/

theorem Placed.of_due (hd : t.id ∈ a.due running) (hs : t.stage = .fresh ∨ t.stage = .awake) : a.Placed running t := by
  refine ⟨fun _ => hd, fun ha => ?_, fun g hg => ?_⟩
  · simp [ha] at hs
  · simp [hg] at hs

theorem Placed.of_done (hs : t.stage = .done) : a.Placed running t :=
  ⟨fun h => by simp [hs] at h, fun h => by simp [hs] at h, fun g h => by simp [hs] at h⟩

/-- The agenda goes on, and the place of the task remains. -/
theorem Placed.frame {running' : Option Nat} (h : a.Placed running t) (hi : u.id = t.id) (hs : u.stage = t.stage)
    (hd : t.id ∈ a.due running → t.id ∈ b.due running') (ha : ∀ x ∈ a.alarms, x.task = t.id → x ∈ b.alarms)
    (hg : ∀ r ∈ a.gatherings, r.waiter = t.id → 0 < r.left → r ∈ b.gatherings) : b.Placed running' u := by
  refine ⟨fun h' => ?_, fun h' => ?_, fun g h' => ?_⟩
  · rw [hi]
    exact hd (h.due (hs ▸ h'))
  · obtain ⟨x, hx, hxt⟩ := h.asleep (hs ▸ h')
    exact ⟨x, ha x hx hxt, hxt.trans hi.symm⟩
  · obtain ⟨r, hr, hrg, hw, hl⟩ := h.gathering g (hs ▸ h')
    exact ⟨r, hg r hr hw hl, hrg, hw.trans hi.symm, hl⟩

/-! ## Jobs that are started and cancelled -/

theorem due_append_task (a : Agenda) (running : Option Nat) (id : Nat) :
    (a.append (.task id)).due running = a.due running ++ [id] := by
  simp [due, append, Turn.task?]

theorem Wakeful.start (h : a.Wakeful running) (id : Nat) (work : Work) : (a.start id work).Wakeful running := by
  have hdue : (a.start id work).due running = a.due running ++ [id] := due_append_task ..
  intro t ht
  rcases List.mem_append.mp ht with ht | ht
  · refine (h t ht).frame rfl rfl (fun hd => ?_) (fun _ hx _ => hx) fun _ hr _ _ => hr
    rw [hdue]
    exact List.mem_append_left _ hd
  · rw [List.mem_singleton.mp ht]
    refine .of_due ?_ (.inl rfl)
    rw [hdue]
    exact List.mem_append_right _ (List.mem_singleton_self id)

/-- A task is put in the place of the one with its number. -/
theorem Wakeful.put (h : a.Wakeful running) (hb : b.tasks = (a.putTask u).tasks)
    (hothers : ∀ t ∈ a.tasks, t.id ≠ u.id → a.Placed running t → b.Placed running t) (hself : b.Placed running u) :
    b.Wakeful running := by
  intro x hx
  rw [hb] at hx
  obtain ⟨t, ht, rfl⟩ := List.mem_map.mp hx
  split
  · exact hself
  · next hne => exact hothers t ht hne (h t ht)

/-- A task is marked as cancelled, and goes on. -/
theorem Wakeful.mark (h : a.Wakeful running) (ht : t ∈ a.tasks) :
    (a.putTask { t with cancelled := true }).Wakeful running := by
  refine h.put rfl (fun t _ _ hp => ?_) ?_
  · exact hp.frame rfl rfl (fun hd => hd) (fun _ hx _ => hx) fun _ hr _ _ => hr
  · exact (h t ht).frame rfl rfl (fun hd => hd) (fun _ hx _ => hx) fun _ hr _ _ => hr

theorem Wakeful.cancelSimple (h : a.Wakeful running) (id : Nat) : (a.cancelSimple id).Wakeful running := by
  unfold Agenda.cancelSimple
  split
  · exact h
  · next t ht =>
      obtain ⟨hmem, rfl⟩ := task?_mem ht
      split
      · exact h.mark hmem
      · exact h.mark hmem
      · have hdue := due_append_task (a.putTask { t with stage := .awake, cancelled := true }) running t.id
        refine h.put (u := { t with stage := .awake, cancelled := true }) rfl (fun u _ hne hp => ?_) ?_
        · refine hp.frame rfl rfl (fun hd => ?_) (fun x hx hxu => ?_) fun _ hr _ _ => hr
          · exact hdue ▸ List.mem_append_left _ hd
          · exact List.mem_filter.mpr ⟨hx, by simpa [hxu] using hne⟩
        · exact .of_due (hdue ▸ List.mem_append_right _ (List.mem_singleton_self _)) (.inr rfl)
      · exact h
      · exact h

theorem Wakeful.cancel (h : a.Wakeful running) (id : Nat) : (a.cancel id).Wakeful running := by
  have simple : ∀ (ks : List Nat) {b : Agenda}, b.Wakeful running → (ks.foldl Agenda.cancelSimple b).Wakeful running := by
    intro ks
    induction ks with
    | nil => exact fun h => h
    | cons k ks ih => exact fun h => ih (h.cancelSimple k)
  unfold Agenda.cancel
  split
  · exact h
  · next t ht =>
      split
      · exact simple _ (h.mark (task?_mem ht).1)
      · exact h.cancelSimple id

theorem Wakeful.cancels (h : a.Wakeful running) (ks : List Nat) : (ks.foldl Agenda.cancel a).Wakeful running := by
  induction ks generalizing a with
  | nil => exact h
  | cons k ks ih => exact ih (h.cancel k)

end Agenda
end Formwork
