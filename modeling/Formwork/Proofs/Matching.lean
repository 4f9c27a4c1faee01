import Formwork.Pattern.Matching

/-!
What a pattern matches, read off the text alone: a repetition of one kind of character may take any number of them, as
long as what follows matches the characters that are left.
-/

namespace Formwork.Pattern

variable {text : Array Char} {s : Progress} {cs left : List Char} {c : Char} {holds : Char → Bool}
  {k : Progress → Option Progress} {P : List Char → Prop} {least count : Nat} {most : Option Nat}

namespace Progress

/-- These characters are still to be matched. -/
def At (s : Progress) (text : Array Char) (cs : List Char) : Prop :=
  ∃ before, text.toList = before ++ cs ∧ s.position = before.length

def next (s : Progress) : Progress := { s with position := s.position + 1 }

theorem At.start (text : Array Char) : At { position := 0 } text text.toList := ⟨[], rfl, rfl⟩

theorem At.head (h : s.At text cs) : text[s.position]? = cs.head? := by
  obtain ⟨before, ht, hp⟩ := h
  rw [hp, ← Array.getElem?_toList, ht, List.getElem?_append_right (Nat.le_refl _), Nat.sub_self, List.head?_eq_getElem?]

theorem At.size (h : s.At text cs) : text.size = s.position + cs.length := by
  obtain ⟨before, ht, hp⟩ := h
  rw [hp, ← Array.length_toList, ht, List.length_append]

theorem At.next (h : s.At text (c :: left)) : s.next.At text left := by
  obtain ⟨before, ht, hp⟩ := h
  exact ⟨before ++ [c], by simp [ht], by simp [Progress.next, hp]⟩

end Progress

namespace CharSet

variable {d e : Char} {set : CharSet}

theorem holds_iff {items : List Item} : CharSet.holds { items } c ↔ items.any (itemHolds { items } c.toNat) := by
  simp [CharSet.holds, variants]

theorem itemHolds_point : set.itemHolds c.toNat (.point d.toNat) ↔ c = d := by
  simp [itemHolds, Char.toNat_inj, eq_comm]

theorem itemHolds_span : set.itemHolds c.toNat (.span d.toNat e.toNat) ↔ d.toNat ≤ c.toNat ∧ c.toNat ≤ e.toNat := by
  simp [itemHolds]

theorem itemHolds_digit : itemHolds { items := [.category .digit false] } c.toNat (.category .digit false) ↔
    Text.isDigit c := by
  simp [itemHolds, Category.holds]

theorem single_holds : (single d.toNat false false).holds c ↔ c = d := by
  rw [single, holds_iff, List.any_cons, List.any_nil, Bool.or_false]
  exact itemHolds_point

theorem digit_holds : CharSet.holds { items := [.category .digit false] } c ↔ Text.isDigit c := by
  rw [holds_iff, List.any_cons, List.any_nil, Bool.or_false]
  exact itemHolds_digit

end CharSet

/-- Whether the rest of a match succeeds is told by the characters that are left. -/
def Decides (text : Array Char) (k : Progress → Option Progress) (P : List Char → Prop) : Prop :=
  ∀ s cs, s.At text cs → ((k s).isSome ↔ P cs)

theorem step_nil (h : s.At text []) : step text holds s k = none := by
  rw [step, h.head]
  rfl

theorem step_cons (h : s.At text (c :: left)) : step text holds s k = if holds c then k s.next else none := by
  rw [step, h.head]
  rfl

/-- After so many characters of a kind, more of them until there are enough but not too many, and what follows them. -/
def Takes (holds : Char → Bool) (P : List Char → Prop) (least : Nat) (most : Option Nat) : Nat → List Char → Prop
  | count, [] => least ≤ count ∧ P []
  | count, c :: left =>
      (least ≤ count ∧ P (c :: left)) ∨ (mayRepeat most count ∧ holds c ∧ Takes holds P least most (count + 1) left)

theorem mayRepeat_iff : mayRepeat most count ↔ ∀ m ∈ most, count < m := by
  cases most <;> simp [mayRepeat]

theorem takes_iff (hm : ∀ m ∈ most, count ≤ m) : Takes holds P least most count cs ↔
    ∃ taken left, cs = taken ++ left ∧ (least ≤ count + taken.length ∧ ∀ m ∈ most, count + taken.length ≤ m) ∧
      (∀ c ∈ taken, holds c) ∧ P left := by
  induction cs generalizing count with
  | nil =>
      simp only [Takes]
      constructor
      · rintro ⟨hleast, h⟩
        exact ⟨[], [], rfl, ⟨hleast, hm⟩, by simp, h⟩
      · rintro ⟨taken, left, he, ⟨hleast, -⟩, -, h⟩
        obtain ⟨rfl, rfl⟩ := List.append_eq_nil_iff.mp he.symm
        exact ⟨hleast, h⟩
  | cons c cs ih =>
      have hlength (taken : List Char) : count + (c :: taken).length = count + 1 + taken.length := by
        rw [List.length_cons, Nat.add_right_comm, Nat.add_assoc]
      simp only [Takes, mayRepeat_iff]
      constructor
      · rintro (⟨hleast, h⟩ | ⟨hmore, hc, hrest⟩)
        · exact ⟨[], c :: cs, rfl, ⟨hleast, hm⟩, by simp, h⟩
        · obtain ⟨taken, left, rfl, hcount, hall, h⟩ := (ih hmore).mp hrest
          exact ⟨c :: taken, left, rfl, hlength taken ▸ hcount, List.forall_mem_cons.mpr ⟨hc, hall⟩, h⟩
      · rintro ⟨taken, left, he, hcount, hall, h⟩
        cases taken with
        | nil => exact .inl ⟨hcount.1, he ▸ h⟩
        | cons d taken =>
            obtain ⟨rfl, rfl⟩ := List.cons.inj he
            obtain ⟨hc, hall⟩ := List.forall_mem_cons.mp hall
            rw [hlength] at hcount
            have hmore : ∀ m ∈ most, count < m := fun m hmem =>
              Nat.le_trans (Nat.le_add_right _ _) (hcount.2 m hmem)
            exact .inr ⟨hmore, hc, (ih hmore).mpr ⟨taken, left, rfl, hcount, hall, h⟩⟩

/-- A repetition of one kind of character gives characters back until what follows matches. -/
theorem rounds_isSome (h : Decides text k P) (hm : ∀ m ∈ most, least ≤ m) {fuel : Nat} {last : Option Nat}
    (hs : s.At text cs) (hfuel : least - count + cs.length + 1 ≤ fuel) (hlast : ∀ p, last = some p → p < s.position) :
    (rounds (step text holds) least most .greedy fuel count last s k).isSome ↔ Takes holds P least most count cs := by
  induction fuel generalizing count last s cs with
  | zero => omega
  | succ fuel ih =>
      -- the round before this one took a character, so that the repetition does not end by itself
      have hmoved : (last != some s.position) = true :=
        bne_iff_ne.mpr fun he => absurd (hlast _ he) (Nat.lt_irrefl _)
      cases cs with
      | nil =>
          rw [rounds, Takes]
          split
          · next hcount => simp [step_nil hs, Nat.not_le_of_lt hcount]
          · next hcount => simp [step_nil hs, h _ _ hs, Nat.le_of_not_lt hcount]
      | cons c left =>
          rw [List.length_cons] at hfuel
          have onward (last : Option Nat) (hlast : ∀ p, last = some p → p < s.position + 1) :
              (rounds (step text holds) least most .greedy fuel (count + 1) last s.next k).isSome ↔
                Takes holds P least most (count + 1) left :=
            ih hs.next (by omega) hlast
          rw [rounds, Takes]
          split
          · next hcount =>
              have hmore : mayRepeat most count := mayRepeat_iff.mpr fun m hmem => Nat.lt_of_lt_of_le hcount (hm m hmem)
              have hleft := onward last fun p hp => Nat.lt_succ_of_lt (hlast p hp)
              simp only [step_cons hs, Nat.not_le_of_lt hcount, false_and, false_or, hmore, true_and]
              cases hc : holds c <;> simp [hleft]
          · next hcount =>
              have hleft := onward (some s.position) fun p hp => by cases hp; exact Nat.lt_succ_self _
              simp only [hmoved, Bool.and_true, step_cons hs, Option.orElse_eq_orElse, Option.orElse_eq_or,
                Option.isSome_or, Bool.or_eq_true, h _ _ hs, Nat.le_of_not_lt hcount, true_and]
              rw [or_comm]
              cases hc : holds c <;> cases hmore : mayRepeat most count <;> simp [hleft]

namespace Node

theorem run_chars_decides (set : CharSet) (h : Decides text k P) :
    Decides text (fun s => run text (.chars set) s k) fun cs => ∃ c left, cs = c :: left ∧ set.holds c ∧ P left := by
  intro s cs hs
  change (step text set.holds s k).isSome ↔ _
  cases cs with
  | nil => simp [step_nil hs]
  | cons c left =>
      rw [step_cons hs]
      constructor
      · intro hk
        split at hk
        · next hc => exact ⟨c, left, rfl, hc, (h _ _ hs.next).mp hk⟩
        · cases hk
      · rintro ⟨d, rest, he, hd, hrest⟩
        obtain ⟨rfl, rfl⟩ := List.cons.inj he
        rw [if_pos hd]
        exact (h _ _ hs.next).mpr hrest

theorem run_single_decides (c : Char) (h : Decides text k P) :
    Decides text (fun s => run text (.chars (.single c.toNat false false)) s k)
      fun cs => ∃ left, cs = c :: left ∧ P left := by
  intro s cs hs
  refine (run_chars_decides _ h s cs hs).trans ?_
  simp only [CharSet.single_holds]
  constructor
  · rintro ⟨_, left, rfl, rfl, hleft⟩
    exact ⟨left, rfl, hleft⟩
  · rintro ⟨left, rfl, hleft⟩
    exact ⟨c, left, rfl, rfl, hleft⟩

theorem run_repeated_decides (set : CharSet) (h : Decides text k P) (hm : ∀ m ∈ most, least ≤ m) :
    Decides text (fun s => run text (.repeated least most .greedy (.chars set)) s k)
      (Takes set.holds P least most 0) := by
  intro s cs hs
  refine rounds_isSome h hm hs ?_ (by simp)
  have hsize := hs.size
  rw [roundLimit]
  omega

theorem run_atLeast_decides (least : Nat) (set : CharSet) (h : Decides text k P) :
    Decides text (fun s => run text (.repeated least none .greedy (.chars set)) s k)
      fun cs => ∃ taken left, cs = taken ++ left ∧ least ≤ taken.length ∧ (∀ c ∈ taken, set.holds c) ∧ P left := by
  intro s cs hs
  refine (run_repeated_decides set h (by simp) s cs hs).trans ?_
  rw [takes_iff (by simp)]
  simp

theorem run_exactly_decides (width : Nat) (set : CharSet) (h : Decides text k P) :
    Decides text (fun s => run text (.repeated width (some width) .greedy (.chars set)) s k)
      fun cs => ∃ taken left, cs = taken ++ left ∧ taken.length = width ∧ (∀ c ∈ taken, set.holds c) ∧ P left := by
  have hexact (n : Nat) : (width ≤ 0 + n ∧ ∀ m ∈ some width, 0 + n ≤ m) ↔ n = width := by
    simp only [Option.mem_some_iff, forall_eq']
    omega
  intro s cs hs
  refine (run_repeated_decides set h (by simp) s cs hs).trans ?_
  rw [takes_iff (by simp)]
  simp only [hexact]

theorem run_lastLineEnd_decides (h : Decides text k P) :
    Decides text (fun s => run text (.place .lastLineEnd) s k) fun cs => (cs = [] ∨ cs = ['\n']) ∧ P cs := by
  intro s cs hs
  have hplace : Place.lastLineEnd.holds text s.position ↔ cs = [] ∨ cs = ['\n'] := by
    have hsize := hs.size
    simp only [Place.holds, hs.head, hsize, Bool.or_eq_true, Bool.and_eq_true, decide_eq_true_eq]
    cases cs with
    | nil => simp
    | cons c left => cases left <;> simp [isLineFeed]
  simp only [run, ← hplace, ← h s cs hs]
  split <;> simp [*]

/-- The pattern matches the text from its start, though perhaps not to its end. -/
def matchesStart (node : Node) (text : String) : Bool :=
  (alone (run text.toList.toArray node) { position := 0 }).isSome

end Node
end Formwork.Pattern
