/-
This file says what a replay window remembers. A number counts as accepted when
it lies below the window or when its bit is set. Accepting a number adds that
number; sliding by half a window and starting anew add every number that falls
out below, so nothing that counted as accepted ever stops to.
-/

import Oscore.Entity

namespace Oscore

namespace ReplayWindow

theorem contains_iff {window : ReplayWindow} {number : Nat} :
    window.contains number ↔
      number < window.base ∨ number < window.base + window.size ∧
        window.seen.testBit (number - window.base) := by
  rw [contains]
  by_cases below : number < window.base
  · simp only [below, if_true, true_or]
  · rw [if_neg below]
    by_cases beyond : window.size ≤ number - window.base
    · have outside : ¬number < window.base + window.size := by omega
      simp only [beyond, if_true, below, outside, Bool.false_eq_true, false_and, or_self]
    · have inside : number < window.base + window.size := by omega
      simp only [beyond, if_false, below, inside, true_and, false_or]

/-- A window that starts at zero contains nothing yet. -/
theorem contains_empty (size number : Nat) : (empty 0 size).contains number = false := by
  rw [← Bool.not_eq_true, contains_iff]
  rintro (below | ⟨-, marked⟩)
  · exact absurd below (Nat.not_lt_zero number)
  · rw [empty, Nat.zero_testBit] at marked
    cases marked

theorem contains_mark {window : ReplayWindow} {offset number : Nat}
    (inside : offset < window.size) :
    (window.mark offset).contains number ↔
      window.contains number ∨ number = window.base + offset := by
  rw [contains_iff, contains_iff, mark, Nat.testBit_or, Nat.one_shiftLeft, Nat.testBit_two_pow,
    Bool.or_eq_true, decide_eq_true_eq]
  by_cases below : number < window.base
  · simp only [below, true_or]
  · have place : offset = number - window.base ↔ number = window.base + offset := by omega
    simp only [below, false_or, place, and_or_left]
    refine or_congr_right (and_iff_right_of_imp ?_)
    omega

/-- Sliding forgets which numbers below the new base were accepted, and counts them all. -/
theorem contains_slide {window : ReplayWindow} {distance number : Nat}
    (contained : window.contains number) : (window.slide distance).contains number := by
  rw [contains_iff] at contained ⊢
  show number < window.base + distance ∨ number < window.base + distance + window.size ∧
    (window.seen >>> distance).testBit (number - (window.base + distance)) = true
  by_cases below : number < window.base + distance
  · exact Or.inl below
  · rcases contained with before | ⟨inside, marked⟩
    · exact absurd (Nat.lt_add_right distance before) below
    · refine Or.inr ⟨by omega, ?_⟩
      rw [Nat.testBit_shiftRight]
      have same : distance + (number - (window.base + distance)) = number - window.base := by omega
      rw [same]
      exact marked

/-- What accepting a number does: nothing below the window, a mark inside it, a slide and a mark
just beyond it, and a new window further on. -/
theorem accept_cases (window : ReplayWindow) (sequence : Nat) :
    sequence < window.base ∧ (window.accept sequence).2 = window ∨
      (∃ offset, sequence = window.base + offset ∧ offset < window.size ∧
        (window.accept sequence).2 = window.mark offset) ∨
      (∃ offset, sequence = window.base + window.size / 2 + offset ∧ offset < window.size ∧
        (window.accept sequence).2 = (window.slide (window.size / 2)).mark offset) ∨
      window.base + window.size ≤ sequence ∧
        (window.accept sequence).2 = (empty sequence window.size).mark 0 := by
  rw [accept]
  by_cases below : sequence < window.base
  · exact Or.inl ⟨below, by rw [if_pos below]⟩
  · rw [if_neg below]
    by_cases inside : sequence - window.base < window.size
    · refine Or.inr (Or.inl ⟨sequence - window.base, by omega, inside, ?_⟩)
      simp only [inside, if_true]
    · by_cases near : sequence - window.base < window.size * 3 / 2
      · refine Or.inr (Or.inr (Or.inl
          ⟨sequence - window.base - window.size / 2, by omega, by omega, ?_⟩))
        simp only [inside, near, if_true, if_false]
      · refine Or.inr (Or.inr (Or.inr ⟨by omega, ?_⟩))
        simp only [inside, near, if_false]

/-- What counts as accepted still does when another number is accepted. -/
theorem contains_accept_of_contains {window : ReplayWindow} {number : Nat}
    (contained : window.contains number) (sequence : Nat) :
    (window.accept sequence).2.contains number := by
  obtain ⟨-, result⟩ | ⟨offset, -, inside, result⟩ | ⟨offset, -, inside, result⟩ |
    ⟨beyond, result⟩ := window.accept_cases sequence <;> rw [result]
  · exact contained
  · exact (contains_mark inside).mpr (Or.inl contained)
  · have slid : offset < (window.slide (window.size / 2)).size := inside
    exact (contains_mark slid).mpr (Or.inl (contains_slide contained))
  · -- a window that starts anew lies above all that the old one covered
    have covered : number < window.base + window.size := by
      rcases contains_iff.mp contained with before | ⟨within, -⟩
      · exact Nat.lt_add_right _ before
      · exact within
    exact contains_iff.mpr (Or.inl (Nat.lt_of_lt_of_le covered beyond))

/-- An accepted number counts as accepted. -/
theorem contains_accept {window : ReplayWindow} (positive : 0 < window.size) (sequence : Nat) :
    (window.accept sequence).2.contains sequence := by
  obtain ⟨below, result⟩ | ⟨offset, place, inside, result⟩ | ⟨offset, place, inside, result⟩ |
    ⟨-, result⟩ := window.accept_cases sequence <;> rw [result]
  · exact contains_iff.mpr (Or.inl below)
  · exact (contains_mark inside).mpr (Or.inr place)
  · have slid : offset < (window.slide (window.size / 2)).size := inside
    exact (contains_mark slid).mpr (Or.inr place)
  · have fits : 0 < (empty sequence window.size).size := positive
    exact (contains_mark fits).mpr (Or.inr rfl)

end ReplayWindow

namespace Entity

/-- Every number that had to be refused still has to be. -/
def Remembers (before after : Entity) : Prop :=
  ∀ number, before.isReplay number → after.isReplay number

theorem Remembers.of_window_eq {before after : Entity} (same : after.window = before.window) :
    before.Remembers after := by
  intro number refused
  rw [isReplay, same]
  exact refused

/-- An entity remembers across a change that its window remembers across. -/
theorem Remembers.of_window {before after : Entity} {change : ReplayWindow → ReplayWindow}
    (same : after.window = before.window.map change)
    (keeps : ∀ window number, window.contains number → (change window).contains number) :
    before.Remembers after := by
  intro number refused
  rw [isReplay, same]
  rw [isReplay] at refused
  cases found : before.window with
  | none =>
    rw [found] at refused
    exact refused
  | some window =>
    rw [found] at refused
    exact keeps window number refused

end Entity

end Oscore
