/-
This file says how late a number may come. A window that slides goes half its
size up, and only for a number that lies above all that it covers. So the base
never comes closer to the highest accepted number than the window reaches above
the part that a slide drops: more than half its size if that is odd, and half of
it otherwise. As long as no number is so far ahead that the window starts anew,
a number that is no later than this is refused exactly when it was accepted.
-/

import Oscore.Proofs.PackedHistory

namespace Oscore

theorem WindowEvent.history_accept {Number : Type} (numbers : List Number) :
    history (numbers.map accept) = numbers.reverse := by
  rw [history, List.foldl_map]
  exact List.foldl_flip_cons_eq_append'.trans (List.append_nil _)

namespace ReplayWindow

variable {window : ReplayWindow} {start size base number : Nat} {accepted numbers : List Nat}

/-! ### Windows that only slide -/

/-- How far behind the highest accepted number a number may come in. -/
def tolerance (size : Nat) : Nat := size - size / 2

/-- Numbers of which each, when its turn comes, is less than one and a half windows above the
base, so that none makes the window start anew. -/
def Slides (window : ReplayWindow) : List Nat → Prop
  | [] => True
  | sequence :: rest =>
    sequence < window.base + 3 * window.size / 2 ∧ (window.accept sequence).2.Slides rest

/-- A window that never moved, or keeps the tolerance below some accepted number. -/
def Trails (window : ReplayWindow) (start : Nat) (accepted : List Nat) : Prop :=
  window.base = start ∨ ∃ number ∈ accepted, window.base + tolerance window.size ≤ number

theorem Trails.accept (trails : window.Trails start accepted) {sequence : Nat}
    (near : sequence < window.base + 3 * window.size / 2) :
    (window.accept sequence).2.Trails start (sequence :: accepted) := by
  rw [Trails, size_accept, base_accept, Nat.mul_comm window.size]
  by_cases covered : sequence < window.base + window.size
  · rw [if_pos covered]
    rcases trails with unmoved | ⟨earlier, member, apart⟩
    · exact Or.inl unmoved
    · exact Or.inr ⟨earlier, List.mem_cons_of_mem _ member, apart⟩
  · -- the number that makes the window slide lies above all that the window covered
    rw [if_neg covered, if_pos near]
    refine Or.inr ⟨sequence, List.mem_cons_self, ?_⟩
    rw [tolerance]
    omega

theorem Trails.after (trails : window.Trails start accepted) (slides : window.Slides numbers) :
    (window.after (numbers.map .accept)).Trails start (numbers.reverse ++ accepted) := by
  induction numbers generalizing window accepted with
  | nil => exact trails
  | cons sequence rest inductionHypothesis =>
    obtain ⟨near, slidesOn⟩ := slides
    rw [List.reverse_cons, List.append_assoc]
    exact inductionHypothesis (trails.accept near) slidesOn

/-- A number that comes in no later than the tolerance is not below the window. -/
theorem Trails.base_le (trails : window.Trails start accepted) (begun : start ≤ number)
    (timely : ∀ earlier ∈ accepted, earlier ≤ number + tolerance window.size) :
    window.base ≤ number := by
  rcases trails with unmoved | ⟨earlier, member, apart⟩
  · rw [unmoved]
    exact begun
  · have behind := timely earlier member
    omega

@[simp] theorem size_after (window : ReplayWindow) (events : List (WindowEvent Nat)) :
    (window.after events).size = window.size := by
  induction events generalizing window with
  | nil => rfl
  | cons event rest inductionHypothesis =>
    rw [after, List.foldl_cons, ← after, inductionHypothesis]
    cases event with
    | accept sequence => exact window.size_accept sequence
    | reset base => rfl

/-- A window that only slides tells exactly of the numbers that are not too late whether they were
accepted. -/
theorem Slides.contains_iff (slides : (empty base size).Slides numbers) (positive : 0 < size)
    (begun : base ≤ number)
    (timely : ∀ earlier ∈ numbers, earlier ≤ number + tolerance size) :
    ((empty base size).after (numbers.map .accept)).contains number ↔ number ∈ numbers := by
  have trails : (empty base size).Trails base [] := Or.inl rfl
  have reached := (trails.after slides).base_le begun
  rw [size_after, List.append_nil] at reached
  obtain ⟨_, records⟩ := (records_empty positive base).after (numbers.map .accept)
  rw [records.contains_iff]
  show number < _ ∨ number ∈ WindowEvent.history (numbers.map .accept) ↔ number ∈ numbers
  rw [WindowEvent.history_accept, List.mem_reverse]
  refine or_iff_right (Nat.not_lt.mpr (reached ?_))
  intro earlier member
  exact timely earlier (List.mem_reverse.mp member)

end ReplayWindow

namespace PackedWindow

/-- A window in words that only slides tells of the same numbers whether they were accepted. -/
theorem contains?_of_slides {base size : UInt64} (positive : 0 < size.toNat)
    (allocated : 3 * size.toNat < 2 ^ 64) {numbers : List UInt64}
    (slides : (ReplayWindow.empty base.toNat size.toNat).Slides (numbers.map UInt64.toNat)) :
    ∃ start window, create base size = .ok start ∧
      start.after? (numbers.map .accept) = some window ∧
      ∀ number, base ≤ number →
        (∀ earlier ∈ numbers,
          earlier.toNat ≤ number.toNat + ReplayWindow.tolerance size.toNat) →
        window.contains? number = some (decide (number ∈ numbers)) := by
  obtain ⟨start, created, startFormed, startUnpacks⟩ := @create_eq_ok base size positive
    (Nat.le_of_lt_succ (Nat.mul_comm .. ▸ allocated))
  obtain ⟨window, run, formed, -, unpacks⟩ := startFormed.after?_eq (numbers.map .accept)
  refine ⟨start, window, created, run, ?_⟩
  intro number begun timely
  have same : (numbers.map WindowEvent.accept).map (.map UInt64.toNat) =
      (numbers.map UInt64.toNat).map WindowEvent.accept := by
    rw [List.map_map, List.map_map]
    rfl
  rw [formed.contains?_eq, unpacks, startUnpacks, same, Option.some.injEq, Bool.eq_iff_iff,
    decide_eq_true_eq, slides.contains_iff positive (UInt64.le_iff_toNat_le.mp begun),
    mem_map_toNat]
  intro earlier member
  obtain ⟨word, there, rfl⟩ := List.mem_map.mp member
  exact timely word there

end PackedWindow

namespace ReplayWindow

/-- Whatever a window accepts without starting anew, a number from its first base on that is no
further behind the highest accepted number than the window less half of it, rounded down, is refused
exactly when it was accepted. It is fresh otherwise, in whatever order the numbers came. The same
holds of a window in words, none of whose steps wraps. -/
theorem timely_refused_iff_accepted :
    (∀ base size : Nat, 0 < size → ∀ numbers : List Nat, (empty base size).Slides numbers →
      ∀ number, base ≤ number → (∀ earlier ∈ numbers, earlier ≤ number + (size - size / 2)) →
        ((empty base size).after (numbers.map .accept)).contains number =
          decide (number ∈ numbers)) ∧
      ∀ base size : UInt64, 0 < size.toNat → 3 * size.toNat < 2 ^ 64 →
        ∀ numbers : List UInt64,
          (empty base.toNat size.toNat).Slides (numbers.map UInt64.toNat) →
        ∃ start window, PackedWindow.create base size = .ok start ∧
          start.after? (numbers.map .accept) = some window ∧
          ∀ number, base ≤ number →
            (∀ earlier ∈ numbers,
              earlier.toNat ≤ number.toNat + (size.toNat - size.toNat / 2)) →
            window.contains? number = some (decide (number ∈ numbers)) := by
  constructor
  · intro base size positive numbers slides number begun timely
    rw [Bool.eq_iff_iff, decide_eq_true_eq]
    exact slides.contains_iff positive begun timely
  · intro base size positive allocated numbers slides
    exact PackedWindow.contains?_of_slides positive allocated slides

/-- A window of five numbers slides by two at sixteen and at eighteen. Then fifteen, which comes in
as late as it may, is fresh, and sixteen is not. -/
theorem timely_refused_iff_accepted_odd :
    (empty 10 5).Slides [14, 16, 18] ∧
      ((empty 10 5).after ([14, 16, 18].map .accept)).contains 15 = false ∧
      ∃ start window, PackedWindow.create 10 5 = .ok start ∧
        start.after? ([14, 16, 18].map .accept) = some window ∧
        window.contains? 15 = some false ∧ window.contains? 16 = some true := by
  have slides : (empty 10 5).Slides [14, 16, 18] := ⟨by decide, by decide, by decide, trivial⟩
  obtain ⟨ofNumbers, ofWords⟩ := timely_refused_iff_accepted
  obtain ⟨start, window, created, run, tells⟩ :=
    ofWords 10 5 (by decide) (by decide) [14, 16, 18] slides
  have timely : ∀ number : UInt64, 15 ≤ number.toNat →
      ∀ earlier ∈ ([14, 16, 18] : List UInt64), earlier.toNat ≤ number.toNat + (5 - 5 / 2) := by
    intro number reached
    simp only [List.mem_cons, List.not_mem_nil, or_false, forall_eq_or_imp, forall_eq,
      UInt64.reduceToNat]
    omega
  exact ⟨slides, ofNumbers 10 5 (by decide) _ slides 15 (by decide) (by decide),
    start, window, created, run, tells 15 (by decide) (timely 15 (by decide)),
    tells 16 (by decide) (timely 16 (by decide))⟩

end ReplayWindow

end Oscore
