/-
This file says exactly what a replay window tells apart. After any acceptances
and resets, a number counts as accepted when it lies below the window or was
accepted since the last reset, and no other number does. What carries this
through the slides is that no bit beyond the size is ever set: a slide brings no
number into the window that was not there, and a window that starts anew lies
above all that the old one covered.
-/

import Oscore.Proofs.WindowMemory

namespace Oscore

/-! ### What happens to a window -/

/-- What is done to a window. -/
inductive WindowEvent (Number : Type)
  /-- Accepts a number, whether it was accepted before or not. -/
  | accept (sequence : Number)
  /-- Empties the window and moves it. -/
  | reset (base : Number)
  deriving DecidableEq, Repr

namespace WindowEvent

variable {Number Other : Type}

/-- The same event with its number written otherwise. -/
def map (write : Number → Other) : WindowEvent Number → WindowEvent Other
  | accept sequence => accept (write sequence)
  | reset base => reset (write base)

/-- The numbers accepted since the last reset, after one more event. -/
def record (accepted : List Number) : WindowEvent Number → List Number
  | accept sequence => sequence :: accepted
  | reset _ => []

/-- The numbers that some events accept after the last reset among them. -/
def history (events : List (WindowEvent Number)) : List Number := events.foldl record []

/-- The window that an event leaves. -/
def next (window : ReplayWindow) : WindowEvent Nat → ReplayWindow
  | accept sequence => (window.accept sequence).2
  | reset base => window.reset base

theorem record_map (write : Number → Other) (accepted : List Number)
    (event : WindowEvent Number) :
    (event.map write).record (accepted.map write) = (event.record accepted).map write := by
  cases event with
  | accept sequence => rfl
  | reset base => rfl

theorem foldl_record_map (write : Number → Other) (events : List (WindowEvent Number))
    (accepted : List Number) :
    (events.map (map write)).foldl record (accepted.map write) =
      (events.foldl record accepted).map write := by
  induction events generalizing accepted with
  | nil => rfl
  | cons event rest inductionHypothesis =>
    rw [List.map_cons, List.foldl_cons, List.foldl_cons, record_map, inductionHypothesis]

theorem history_map (write : Number → Other) (events : List (WindowEvent Number)) :
    history (events.map (map write)) = (history events).map write :=
  foldl_record_map write events []

end WindowEvent

namespace ReplayWindow

variable {window : ReplayWindow} {accepted : List Nat}

/-- The window that some events leave, one after another. -/
def after (window : ReplayWindow) (events : List (WindowEvent Nat)) : ReplayWindow :=
  events.foldl WindowEvent.next window

/-! ### Bits beyond the size -/

/-- A window in which no bit beyond its size is set. -/
def Tidy (window : ReplayWindow) : Prop :=
  ∀ offset, window.seen.testBit offset → offset < window.size

theorem tidy_empty (base size : Nat) : (empty base size).Tidy := by
  intro offset marked
  rw [empty, Nat.zero_testBit] at marked
  cases marked

theorem Tidy.mark (tidy : window.Tidy) {offset : Nat} (inside : offset < window.size) :
    (window.mark offset).Tidy := by
  intro other marked
  rw [ReplayWindow.mark, Nat.testBit_or, Nat.one_shiftLeft, Nat.testBit_two_pow, Bool.or_eq_true,
    decide_eq_true_eq] at marked
  rcases marked with before | same
  · exact tidy other before
  · rw [← same]
    exact inside

theorem Tidy.slide (tidy : window.Tidy) (distance : Nat) : (window.slide distance).Tidy := by
  intro offset marked
  rw [ReplayWindow.slide, Nat.testBit_shiftRight] at marked
  exact Nat.lt_of_le_of_lt (Nat.le_add_left _ _) (tidy _ marked)

theorem Tidy.accept (tidy : window.Tidy) (positive : 0 < window.size) (sequence : Nat) :
    (window.accept sequence).2.Tidy := by
  obtain ⟨-, result⟩ | ⟨offset, -, inside, result⟩ | ⟨offset, -, inside, result⟩ |
    ⟨-, result⟩ := window.accept_cases sequence <;> rw [result]
  · exact tidy
  · exact tidy.mark inside
  · exact (tidy.slide _).mark inside
  · exact (tidy_empty sequence window.size).mark positive

/-! ### One acceptance -/

/-- A slide forgets nothing above the new base, and brings nothing in. -/
theorem Tidy.contains_slide_iff (tidy : window.Tidy) {distance number : Nat} :
    (window.slide distance).contains number ↔
      number < window.base + distance ∨ window.contains number := by
  constructor
  · intro contained
    rcases contains_iff.mp contained with below | ⟨-, marked⟩
    · exact Or.inl below
    · by_cases low : number < window.base + distance
      · exact Or.inl low
      · rw [ReplayWindow.slide, Nat.testBit_shiftRight] at marked
        have place : distance + (number - (window.base + distance)) = number - window.base := by
          omega
        rw [place] at marked
        have inside := tidy _ marked
        exact Or.inr (contains_iff.mpr (Or.inr ⟨by omega, marked⟩))
  · rintro (below | contained)
    · exact contains_iff.mpr (Or.inl below)
    · exact contains_slide contained

theorem lt_of_contains {number : Nat} (contained : window.contains number) :
    number < window.base + window.size := by
  rcases contains_iff.mp contained with below | ⟨inside, -⟩
  · exact Nat.lt_add_right _ below
  · exact inside

/-- Accepting a number adds that number and what falls out below, and nothing else. -/
theorem Tidy.contains_accept_iff (tidy : window.Tidy) (positive : 0 < window.size)
    {sequence number : Nat} :
    (window.accept sequence).2.contains number ↔
      number < (window.accept sequence).2.base ∨ window.contains number ∨ number = sequence := by
  have own : ∀ {other : ReplayWindow}, number < other.base → other.contains number :=
    fun below => contains_iff.mpr (Or.inl below)
  obtain ⟨below, result⟩ | ⟨offset, place, inside, result⟩ | ⟨offset, place, inside, result⟩ |
    ⟨beyond, result⟩ := window.accept_cases sequence <;> rw [result]
  · constructor
    · intro contained
      exact Or.inr (Or.inl contained)
    · rintro (low | contained | rfl)
      · exact own low
      · exact contained
      · exact own below
  · rw [contains_mark inside, place]
    exact ⟨Or.inr, fun either => either.elim (fun low => Or.inl (own low)) id⟩
  · have slid : offset < (window.slide (window.size / 2)).size := inside
    rw [contains_mark slid, tidy.contains_slide_iff, or_assoc, place]
    exact Iff.rfl
  · have fits : 0 < (empty sequence window.size).size := positive
    rw [contains_mark fits, contains_iff]
    show (number < sequence ∨ _ ∧ Nat.testBit 0 _ = true) ∨ number = sequence + 0 ↔
      number < sequence ∨ window.contains number ∨ number = sequence
    rw [Nat.zero_testBit, Nat.add_zero]
    constructor
    · rintro ((low | ⟨-, marked⟩) | same)
      · exact Or.inl low
      · cases marked
      · exact Or.inr (Or.inr same)
    · rintro (low | contained | same)
      · exact Or.inl (Or.inl low)
      · exact Or.inl (Or.inl (Nat.lt_of_lt_of_le (lt_of_contains contained) beyond))
      · exact Or.inr same

/-- What each of the four branches of an acceptance gives. -/
theorem accept_below {sequence : Nat} (below : sequence < window.base) :
    window.accept sequence = (false, window) := by
  rw [accept, if_pos below]

theorem accept_inside {offset : Nat} (inside : offset < window.size) :
    window.accept (window.base + offset) = (false, window.mark offset) := by
  rw [accept, if_neg (Nat.not_lt.mpr (Nat.le_add_right _ _))]
  simp only [Nat.add_sub_cancel_left, inside, if_true]

theorem accept_near {offset : Nat} (reaches : window.size ≤ offset)
    (near : offset < window.size * 3 / 2) :
    window.accept (window.base + offset) =
      (true, (window.slide (window.size / 2)).mark (offset - window.size / 2)) := by
  rw [accept, if_neg (Nat.not_lt.mpr (Nat.le_add_right _ _))]
  simp only [Nat.add_sub_cancel_left, Nat.not_lt.mpr reaches, near, if_true, if_false]

theorem accept_further {offset : Nat} (further : window.size * 3 / 2 ≤ offset) :
    window.accept (window.base + offset) =
      (true, (empty (window.base + offset) window.size).mark 0) := by
  have reaches : window.size ≤ offset := by omega
  rw [accept, if_neg (Nat.not_lt.mpr (Nat.le_add_right _ _))]
  simp only [Nat.add_sub_cancel_left, Nat.not_lt.mpr reaches, Nat.not_lt.mpr further, if_false]

/-- Where a window stands after accepting a number: unmoved, half its size further up, or at the
number. -/
theorem base_accept (window : ReplayWindow) (sequence : Nat) :
    (window.accept sequence).2.base =
      if sequence < window.base + window.size then window.base
      else if sequence < window.base + window.size * 3 / 2 then window.base + window.size / 2
      else sequence := by
  by_cases below : sequence < window.base
  · rw [accept_below below, if_pos (Nat.lt_add_right _ below)]
  · obtain ⟨offset, rfl⟩ := Nat.exists_eq_add_of_le (Nat.le_of_not_lt below)
    simp only [Nat.add_lt_add_iff_left]
    by_cases inside : offset < window.size
    · rw [accept_inside inside, if_pos inside, mark]
    · rw [if_neg inside]
      by_cases near : offset < window.size * 3 / 2
      · rw [accept_near (Nat.le_of_not_lt inside) near, if_pos near, mark, slide]
      · rw [accept_further (Nat.le_of_not_lt near), if_neg near, mark, empty]

/-- The answer to an acceptance says whether the base went up. -/
theorem moved_accept (positive : 0 < window.size) (sequence : Nat) :
    (window.accept sequence).1 = decide (window.base < (window.accept sequence).2.base) := by
  by_cases below : sequence < window.base
  · rw [accept_below below]
    exact (decide_eq_false (Nat.lt_irrefl _)).symm
  · obtain ⟨offset, rfl⟩ := Nat.exists_eq_add_of_le (Nat.le_of_not_lt below)
    by_cases inside : offset < window.size
    · rw [accept_inside inside]
      exact (decide_eq_false (Nat.lt_irrefl _)).symm
    · by_cases near : offset < window.size * 3 / 2
      · rw [accept_near (Nat.le_of_not_lt inside) near]
        exact (decide_eq_true (Nat.lt_add_of_pos_right (by omega))).symm
      · rw [accept_further (Nat.le_of_not_lt near)]
        exact (decide_eq_true (Nat.lt_add_of_pos_right (by omega))).symm

/-- A window never moves beyond the number that moves it. -/
theorem base_accept_le (window : ReplayWindow) (sequence : Nat) :
    (window.accept sequence).2.base = window.base ∨
      (window.accept sequence).2.base ≤ sequence := by
  rw [base_accept]
  split
  · exact Or.inl rfl
  · split
    · exact Or.inr (by omega)
    · exact Or.inr (Nat.le_refl _)

/-! ### Runs -/

/-- A window that tells apart the numbers accepted since it was empty at some base. -/
structure Records (window : ReplayWindow) (start : Nat) (accepted : List Nat) : Prop where
  positive : 0 < window.size
  tidy : window.Tidy
  contains_iff : ∀ number, window.contains number ↔ number < window.base ∨ number ∈ accepted
  base_le : window.base = start ∨ ∃ number ∈ accepted, window.base ≤ number

theorem records_empty {size : Nat} (positive : 0 < size) (base : Nat) :
    (empty base size).Records base [] where
  positive := positive
  tidy := tidy_empty base size
  contains_iff number := by
    rw [ReplayWindow.contains_iff, empty, Nat.zero_testBit]
    simp only [Bool.false_eq_true, and_false, or_false, List.not_mem_nil]
  base_le := Or.inl rfl

theorem Records.accept {start : Nat} (records : window.Records start accepted) (sequence : Nat) :
    (window.accept sequence).2.Records start (sequence :: accepted) where
  positive := by
    rw [size_accept]
    exact records.positive
  tidy := records.tidy.accept records.positive sequence
  contains_iff number := by
    have low : number < window.base → number < (window.accept sequence).2.base ∨
        number ∈ sequence :: accepted := by
      intro below
      rw [base_accept]
      split
      · exact Or.inl below
      · split <;> exact Or.inl (by omega)
    rw [records.tidy.contains_accept_iff records.positive, records.contains_iff]
    constructor
    · rintro (below | (below | member) | rfl)
      · exact Or.inl below
      · exact low below
      · exact Or.inr (List.mem_cons_of_mem _ member)
      · exact Or.inr List.mem_cons_self
    · rintro (below | member)
      · exact Or.inl below
      · rcases List.mem_cons.mp member with same | earlier
        · exact Or.inr (Or.inr same)
        · exact Or.inr (Or.inl (Or.inr earlier))
  base_le := by
    rcases window.base_accept_le sequence with same | atMost
    · rw [same]
      rcases records.base_le with unmoved | ⟨number, member, atMost⟩
      · exact Or.inl unmoved
      · exact Or.inr ⟨number, List.mem_cons_of_mem _ member, atMost⟩
    · exact Or.inr ⟨sequence, List.mem_cons_self, atMost⟩

theorem Records.next {start : Nat} (records : window.Records start accepted)
    (event : WindowEvent Nat) :
    ∃ start, (event.next window).Records start (event.record accepted) := by
  cases event with
  | accept sequence => exact ⟨start, records.accept sequence⟩
  | reset base => exact ⟨base, records_empty records.positive base⟩

theorem Records.after {start : Nat} (records : window.Records start accepted)
    (events : List (WindowEvent Nat)) :
    ∃ start, (window.after events).Records start (events.foldl WindowEvent.record accepted) := by
  induction events generalizing window start accepted with
  | nil => exact ⟨start, records⟩
  | cons event rest inductionHypothesis =>
    obtain ⟨_, later⟩ := records.next event
    exact inductionHypothesis later

/-- A number above all that were accepted has not been accepted, unless the window began above
it. -/
theorem Records.fresh {start number : Nat} (records : window.Records start accepted)
    (above : ∀ earlier ∈ accepted, earlier < number) (begun : start ≤ number) :
    window.contains number = false := by
  rw [← Bool.not_eq_true, records.contains_iff]
  rintro (below | member)
  · rcases records.base_le with unmoved | ⟨earlier, member, atMost⟩
    · omega
    · have smaller := above earlier member
      omega
  · exact Nat.lt_irrefl _ (above number member)

end ReplayWindow

end Oscore
