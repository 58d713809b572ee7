/-
This file shows that a replay window in machine words never leaves their range.
The words of a window write one number, whose bits are those of the window that
knows no words; every step on words is the step on that number. A size that
fits three times into a word leaves room for all the arithmetic, and as many
words as the size needs have room for all the bits, so no step is without
result.
-/

import Mathlib.Algebra.Group.Nat.Defs
import Oscore.PackedWindow
import Oscore.Proofs.WindowHistory

namespace Oscore

/-! ### Arithmetic of words -/

section Words

variable {left right : UInt64}

theorem wordSum?_eq_some (fits : left.toNat + right.toNat ≤ wordCeiling) :
    ∃ total, wordSum? left right = some total ∧ total.toNat = left.toNat + right.toNat := by
  refine ⟨left + right, if_pos fits, ?_⟩
  rw [UInt64.toNat_add]
  exact Nat.mod_eq_of_lt (Nat.lt_succ_of_le fits)

theorem wordDifference?_eq_some (fits : right.toNat ≤ left.toNat) :
    ∃ rest, wordDifference? left right = some rest ∧ rest.toNat = left.toNat - right.toNat :=
  ⟨left - right, if_pos (UInt64.le_iff_toNat_le.mpr fits),
    UInt64.toNat_sub_of_le _ _ (UInt64.le_iff_toNat_le.mpr fits)⟩

theorem wordProduct?_eq_some (fits : left.toNat * right.toNat ≤ wordCeiling) :
    ∃ product, wordProduct? left right = some product ∧
      product.toNat = left.toNat * right.toNat := by
  refine ⟨left * right, if_pos fits, ?_⟩
  rw [UInt64.toNat_mul]
  exact Nat.mod_eq_of_lt (Nat.lt_succ_of_le fits)

end Words

/-! ### The number that words write -/

namespace PackedBits

variable {words shifted : List UInt64} {index distance count : UInt64}

/-- The number that words write, least significant word first. -/
def number : List UInt64 → Nat
  | [] => 0
  | word :: rest => 2 ^ 64 * number rest + word.toNat

theorem testBit_number (words : List UInt64) (offset : Nat) :
    (number words).testBit offset =
      (words.getD (offset / 64) 0).toNat.testBit (offset % 64) := by
  induction words generalizing offset with
  | nil =>
    rw [number, Nat.zero_testBit, List.getD_nil]
    exact (Nat.zero_testBit _).symm
  | cons word rest inductionHypothesis =>
    rw [number, Nat.testBit_two_pow_mul_add _ word.toNat_lt]
    by_cases low : offset < 64
    · rw [if_pos low, Nat.div_eq_of_lt low, Nat.mod_eq_of_lt low, List.getD_cons_zero]
    · obtain ⟨further, rfl⟩ := Nat.exists_eq_add_of_le (Nat.le_of_not_lt low)
      rw [if_neg low, inductionHypothesis, Nat.add_sub_cancel_left,
        Nat.add_div_left _ (by decide), Nat.add_mod_left, List.getD_cons_succ]

theorem number_zeros (count : Nat) : number (List.replicate count 0) = 0 := by
  induction count with
  | zero => rfl
  | succ count inductionHypothesis =>
    rw [List.replicate_succ, number, inductionHypothesis]
    rfl

theorem test?_eq_some (inside : index.toNat / 64 < words.length) :
    test? words index = some ((number words).testBit index.toNat) := by
  have place : (index / 64).toNat = index.toNat / 64 := UInt64.toNat_div index 64
  have bit : (index % 64).toNat % 64 = index.toNat % 64 := by
    rw [UInt64.toNat_mod]
    exact Nat.mod_mod _ _
  rw [test?, place, List.getElem?_eq_getElem inside, Option.map_some, testBit_number,
    List.getD_eq_getElem?_getD, List.getElem?_eq_getElem inside, Option.getD_some]
  congr 1
  rw [Bool.eq_iff_iff, beq_iff_eq, ← UInt64.toNat_inj, UInt64.toNat_and, UInt64.toNat_shiftRight,
    bit, Nat.testBit_eq_decide_div_mod_eq, decide_eq_true_eq, Nat.shiftRight_eq_div_pow]
  show (_ &&& 1) = 1 ↔ _
  rw [Nat.and_one_is_mod]

theorem mark?_eq_some (inside : index.toNat / 64 < words.length) :
    ∃ marked, mark? words index = some marked ∧ marked.length = words.length ∧
      number marked = number words ||| 1 <<< index.toNat := by
  have place : (index / 64).toNat = index.toNat / 64 := UInt64.toNat_div index 64
  have bit : (index % 64).toNat % 64 = index.toNat % 64 := by
    rw [UInt64.toNat_mod]
    exact Nat.mod_mod _ _
  have mask : (1 <<< (index % 64) : UInt64).toNat = 2 ^ (index.toNat % 64) := by
    have small : 2 ^ (index.toNat % 64) < 2 ^ 64 :=
      Nat.pow_lt_pow_right (by decide) (Nat.mod_lt _ (by decide))
    rw [UInt64.toNat_shiftLeft, bit]
    show 1 <<< _ % _ = _
    rw [Nat.one_shiftLeft, Nat.mod_eq_of_lt small]
  rw [mark?, place, List.getElem?_eq_getElem inside, Option.map_some]
  refine ⟨_, rfl, List.length_set, Nat.eq_of_testBit_eq fun offset => ?_⟩
  rw [testBit_number, Nat.testBit_or, testBit_number, Nat.one_shiftLeft, Nat.testBit_two_pow,
    List.getD_eq_getElem?_getD, List.getD_eq_getElem?_getD, List.getElem?_set]
  by_cases same : index.toNat / 64 = offset / 64
  · -- the word of the bit: within it, bits are told apart by their remainders
    have remainders : index.toNat % 64 = offset % 64 ↔ index.toNat = offset := by omega
    rw [if_pos same, if_pos inside, ← same, List.getElem?_eq_getElem inside, Option.getD_some,
      Option.getD_some, UInt64.toNat_or, Nat.testBit_or, mask, Nat.testBit_two_pow,
      decide_eq_decide.mpr remainders]
  · have different : index.toNat ≠ offset := fun equal => same (congrArg (· / 64) equal)
    rw [if_neg same, decide_eq_false different, Bool.or_false]

/-- Copying bits one after another succeeds as long as the highest of them is there. -/
theorem copy?_foldlM (bits : Nat) (room : bits + distance.toNat ≤ 64 * words.length)
    (fits : bits + distance.toNat ≤ wordCeiling) :
    ∃ shifted, (List.range bits).foldlM (copy? words distance)
        (List.replicate words.length 0) = some shifted ∧
      shifted.length = words.length ∧
      ∀ offset, (number shifted).testBit offset =
        (decide (offset < bits) && (number words).testBit (distance.toNat + offset)) := by
  induction bits with
  | zero =>
    refine ⟨_, rfl, List.length_replicate, fun offset => ?_⟩
    rw [number_zeros, Nat.zero_testBit]
    rfl
  | succ bits inductionHypothesis =>
    obtain ⟨before, copied, length, equal⟩ := inductionHypothesis (by omega) (by omega)
    have word : (UInt64.ofNat bits).toNat = bits := by
      rw [UInt64.toNat_ofNat']
      exact Nat.mod_eq_of_lt (by rw [wordCeiling] at fits; omega)
    obtain ⟨source, summed, sourceNumber⟩ := @wordSum?_eq_some (.ofNat bits) distance
      (by rw [word]; omega)
    rw [word] at sourceNumber
    have tested := @test?_eq_some words source (by omega)
    rw [sourceNumber] at tested
    -- bits below the new one are those copied before it
    have below : ∀ offset, offset ≠ bits → (offset < bits + 1 ↔ offset < bits) := by omega
    rw [List.range_succ, List.foldlM_append, copied]
    simp only [List.foldlM_cons, List.foldlM_nil, copy?, summed, tested, Option.bind_eq_bind,
      Option.bind_some, bind_pure]
    by_cases set : (number words).testBit (bits + distance.toNat)
    · obtain ⟨marked, done, markedLength, markedNumber⟩ := @mark?_eq_some before (.ofNat bits)
        (by rw [word, length]; omega)
      rw [word] at markedNumber
      refine ⟨marked, by rw [if_pos set, done], markedLength.trans length, fun offset => ?_⟩
      rw [markedNumber, Nat.testBit_or, equal, Nat.one_shiftLeft, Nat.testBit_two_pow]
      by_cases same : offset = bits
      · rw [same, Nat.add_comm, set]
        simp only [Nat.lt_succ_self, decide_true, Bool.and_self, Bool.or_true]
      · rw [decide_eq_decide.mpr (below offset same), decide_eq_false (Ne.symm same),
          Bool.or_false]
    · refine ⟨before, by rw [if_neg set], length, fun offset => ?_⟩
      rw [equal]
      by_cases same : offset = bits
      · rw [Bool.not_eq_true] at set
        rw [same, Nat.add_comm, set, Bool.and_false, Bool.and_false]
      · rw [decide_eq_decide.mpr (below offset same)]

end PackedBits

/-! ### Windows -/

namespace PackedWindow

variable {window : PackedWindow} {sequence : UInt64}

/-- The window without words. -/
def unpacked (window : PackedWindow) : ReplayWindow :=
  ⟨window.base.toNat, window.size.toNat, PackedBits.number window.words⟩

@[simp] theorem unpacked_base (window : PackedWindow) :
    window.unpacked.base = window.base.toNat := rfl

@[simp] theorem unpacked_size (window : PackedWindow) :
    window.unpacked.size = window.size.toNat := rfl

/-- A window that has as many words as it needs and whose arithmetic fits a word. -/
structure WellFormed (window : PackedWindow) : Prop where
  positive : 0 < window.size.toNat
  allocated : window.size.toNat * 3 ≤ wordCeiling
  length_eq : window.words.length = (window.size.toNat + 63) / 64
  tidy : window.unpacked.Tidy

theorem WellFormed.inside (formed : window.WellFormed) {offset : Nat}
    (covered : offset < window.size.toNat) : offset / 64 < window.words.length := by
  rw [formed.length_eq]
  omega

theorem create_eq_ok {base size : UInt64} (positive : 0 < size.toNat)
    (allocated : size.toNat * 3 ≤ wordCeiling) :
    ∃ window, create base size = .ok window ∧ window.WellFormed ∧
      window.unpacked = .empty base.toNat size.toNat := by
  have nonzero : size ≠ 0 := by
    rintro rfl
    exact Nat.lt_irrefl 0 positive
  have unpacks : (⟨base, size, List.replicate ((size.toNat + 63) / 64) 0⟩ :
      PackedWindow).unpacked = .empty base.toNat size.toNat := by
    rw [unpacked, PackedBits.number_zeros, ReplayWindow.empty]
  refine ⟨_, if_neg nonzero, ⟨positive, allocated, List.length_replicate, ?_⟩, unpacks⟩
  rw [unpacks]
  exact ReplayWindow.tidy_empty _ _

/-- A number that is not below a window lies at an offset that is a word. -/
theorem exists_offset (notBelow : ¬sequence < window.base) :
    ∃ offset, wordDifference? sequence window.base = some offset ∧
      sequence.toNat = window.unpacked.base + offset.toNat := by
  rw [UInt64.lt_iff_toNat_lt, Nat.not_lt] at notBelow
  obtain ⟨offset, subtracted, number⟩ := wordDifference?_eq_some notBelow
  exact ⟨offset, subtracted, by rw [number, unpacked_base, Nat.add_sub_cancel' notBelow]⟩

theorem WellFormed.contains?_eq (formed : window.WellFormed) (sequence : UInt64) :
    window.contains? sequence = some (window.unpacked.contains sequence.toNat) := by
  rw [contains?, ReplayWindow.contains]
  by_cases below : sequence < window.base
  · rw [if_pos below, unpacked_base, if_pos (UInt64.lt_iff_toNat_lt.mp below)]
    rfl
  · obtain ⟨offset, subtracted, place⟩ := exists_offset below
    rw [if_neg below, subtracted, place, if_neg (Nat.not_lt.mpr (Nat.le_add_right _ _)),
      Nat.add_sub_cancel_left, Option.bind_eq_bind, Option.bind_some, unpacked_size]
    by_cases beyond : window.size ≤ offset
    · rw [if_pos beyond, if_pos (UInt64.le_iff_toNat_le.mp beyond)]
      rfl
    · have covered : ¬window.size.toNat ≤ offset.toNat := mt UInt64.le_iff_toNat_le.mpr beyond
      rw [if_neg beyond, if_neg covered,
        PackedBits.test?_eq_some (formed.inside (Nat.lt_of_not_le covered))]
      rfl

theorem WellFormed.mark?_eq (formed : window.WellFormed) (offset : UInt64)
    (covered : offset.toNat < window.size.toNat) :
    ∃ marked, window.mark? offset = some marked ∧ marked.WellFormed ∧
      marked.size = window.size ∧ marked.unpacked = window.unpacked.mark offset.toNat := by
  obtain ⟨words, marked, length, number⟩ := PackedBits.mark?_eq_some (formed.inside covered)
  have unpacks : ({ window with words } : PackedWindow).unpacked =
      window.unpacked.mark offset.toNat := by
    rw [unpacked, ReplayWindow.mark, number]
    rfl
  refine ⟨{ window with words }, by rw [mark?, marked]; rfl,
    ⟨formed.positive, formed.allocated, length.trans formed.length_eq, ?_⟩, rfl, unpacks⟩
  rw [unpacks]
  exact formed.tidy.mark covered

theorem WellFormed.slide?_eq (formed : window.WellFormed) (distance : UInt64)
    (covered : distance.toNat ≤ window.size.toNat)
    (fits : window.base.toNat + distance.toNat ≤ wordCeiling) :
    ∃ moved, window.slide? distance = some moved ∧ moved.WellFormed ∧
      moved.size = window.size ∧ moved.unpacked = window.unpacked.slide distance.toNat := by
  obtain ⟨count, subtracted, countNumber⟩ := wordDifference?_eq_some covered
  have whole : count.toNat + distance.toNat = window.size.toNat := by omega
  have enough : window.size.toNat ≤ 64 * window.words.length := by
    rw [formed.length_eq]
    omega
  have small := formed.allocated
  obtain ⟨words, copied, length, bits⟩ := @PackedBits.copy?_foldlM window.words distance
    count.toNat (by omega) (by omega)
  obtain ⟨base, summed, baseNumber⟩ := wordSum?_eq_some fits
  have number : PackedBits.number words = PackedBits.number window.words >>> distance.toNat := by
    refine Nat.eq_of_testBit_eq fun offset => ?_
    rw [bits, Nat.testBit_shiftRight]
    by_cases low : offset < count.toNat
    · rw [decide_eq_true low, Bool.true_and]
    · -- what would come from beyond the size is not set there
      have unset : ¬(PackedBits.number window.words).testBit (distance.toNat + offset) := by
        intro set
        have inside : distance.toNat + offset < window.size.toNat := formed.tidy _ set
        omega
      rw [decide_eq_false low, Bool.false_and, Bool.eq_false_iff.mpr unset]
  have unpacks : ({ window with base, words } : PackedWindow).unpacked =
      window.unpacked.slide distance.toNat := by
    rw [unpacked, ReplayWindow.slide, number, baseNumber]
    rfl
  refine ⟨{ window with base, words }, ?_,
    ⟨formed.positive, formed.allocated, length.trans formed.length_eq, ?_⟩, rfl, unpacks⟩
  · rw [slide?, subtracted]
    show ((List.range count.toNat).foldlM (PackedBits.copy? window.words distance)
      (List.replicate window.words.length 0)).bind _ = _
    rw [copied, summed]
    rfl
  · rw [unpacks]
    exact formed.tidy.slide _

theorem WellFormed.reset (formed : window.WellFormed) (base : UInt64) :
    (window.reset base).WellFormed ∧
      (window.reset base).unpacked = window.unpacked.reset base.toNat := by
  have unpacks : (window.reset base).unpacked = window.unpacked.reset base.toNat := by
    rw [unpacked, PackedWindow.reset, PackedBits.number_zeros]
    rfl
  refine ⟨⟨formed.positive, formed.allocated, List.length_replicate.trans formed.length_eq, ?_⟩,
    unpacks⟩
  rw [unpacks]
  exact ReplayWindow.tidy_empty _ _

/-- Sliding by half the size and then marking an offset that lies within half the size beyond the
window. -/
theorem WellFormed.slide?_mark?_eq (formed : window.WellFormed) {offset : UInt64}
    (reaches : window.size.toNat ≤ offset.toNat)
    (near : offset.toNat < window.size.toNat * 3 / 2)
    (word : window.base.toNat + offset.toNat ≤ wordCeiling) :
    ∃ moved rest marked, window.slide? (window.size / 2) = some moved ∧
      wordDifference? offset (window.size / 2) = some rest ∧ moved.mark? rest = some marked ∧
      marked.WellFormed ∧ marked.size = window.size ∧
      marked.unpacked = (window.unpacked.slide (window.unpacked.size / 2)).mark
        (offset.toNat - window.unpacked.size / 2) := by
  have half : (window.size / 2).toNat = window.size.toNat / 2 := UInt64.toNat_div _ _
  obtain ⟨moved, slid, movedFormed, movedSize, slides⟩ := formed.slide?_eq (window.size / 2)
    (by rw [half]; omega) (by rw [half]; omega)
  obtain ⟨rest, taken, restNumber⟩ := @wordDifference?_eq_some offset (window.size / 2)
    (by rw [half]; omega)
  rw [half] at restNumber slides
  obtain ⟨marked, done, markedFormed, markedSize, unpacks⟩ := movedFormed.mark?_eq rest
    (by rw [movedSize, restNumber]; omega)
  refine ⟨moved, rest, marked, slid, taken, done, markedFormed, markedSize.trans movedSize, ?_⟩
  rw [unpacks, slides, restNumber, unpacked_size]

/-- Accepting a number in words is accepting it. -/
theorem WellFormed.accept?_eq (formed : window.WellFormed) (sequence : UInt64) :
    ∃ next, window.accept? sequence =
        some ((window.unpacked.accept sequence.toNat).1, next) ∧
      next.WellFormed ∧ next.size = window.size ∧
      next.unpacked = (window.unpacked.accept sequence.toNat).2 := by
  rw [accept?]
  by_cases below : sequence < window.base
  · rw [if_pos below, ReplayWindow.accept_below (UInt64.lt_iff_toNat_lt.mp below)]
    exact ⟨window, rfl, formed, rfl, rfl⟩
  · obtain ⟨offset, subtracted, place⟩ := exists_offset below
    rw [if_neg below, subtracted, place, Option.bind_eq_bind, Option.bind_some]
    by_cases inside : offset < window.size
    · have covered := UInt64.lt_iff_toNat_lt.mp inside
      obtain ⟨marked, done, markedFormed, sameSize, unpacks⟩ := formed.mark?_eq offset covered
      rw [if_pos inside, done, ReplayWindow.accept_inside covered]
      exact ⟨marked, rfl, markedFormed, sameSize, unpacks⟩
    · have reaches : window.size.toNat ≤ offset.toNat :=
        Nat.le_of_not_lt (mt UInt64.lt_iff_toNat_lt.mpr inside)
      obtain ⟨triple, multiplied, tripleNumber⟩ :=
        @wordProduct?_eq_some window.size 3 formed.allocated
      have limit : (triple / 2).toNat = window.size.toNat * 3 / 2 := by
        rw [UInt64.toNat_div, tripleNumber]
        rfl
      rw [if_neg inside, multiplied, Option.bind_eq_bind, Option.bind_some]
      by_cases near : offset < triple / 2
      · have close := UInt64.lt_iff_toNat_lt.mp near
        rw [limit] at close
        -- the number that moves the window is a word, and the new base does not exceed it
        have word : window.base.toNat + offset.toNat ≤ wordCeiling :=
          place ▸ Nat.le_of_lt_succ sequence.toNat_lt
        obtain ⟨moved, rest, marked, slid, taken, done, markedFormed, markedSize, unpacks⟩ :=
          formed.slide?_mark?_eq reaches close word
        rw [if_pos near, ReplayWindow.accept_near reaches close]
        refine ⟨marked, ?_, markedFormed, markedSize, unpacks⟩
        simp only [slid, taken, done, Option.bind_some, Option.pure_def]
      · have far : window.unpacked.size * 3 / 2 ≤ offset.toNat := by
          rw [unpacked_size, ← limit]
          exact Nat.le_of_not_lt (mt UInt64.lt_iff_toNat_lt.mpr near)
        obtain ⟨resetFormed, resets⟩ := formed.reset sequence
        obtain ⟨marked, done, markedFormed, markedSize, unpacks⟩ :=
          resetFormed.mark?_eq 0 formed.positive
        rw [if_neg near, ReplayWindow.accept_further far]
        refine ⟨marked, ?_, markedFormed, markedSize, ?_⟩
        · simp only [done, Option.bind_some, Option.pure_def]
        · rw [unpacks, resets, place]
          rfl

/-! ### Runs -/

/-- The window that an event leaves, if all its steps stay in range. -/
def next? (window : PackedWindow) : WindowEvent UInt64 → Option PackedWindow
  | .accept sequence => (window.accept? sequence).map Prod.snd
  | .reset base => some (window.reset base)

/-- The window that some events leave, if all their steps stay in range. -/
def after? (window : PackedWindow) (events : List (WindowEvent UInt64)) : Option PackedWindow :=
  events.foldlM next? window

theorem WellFormed.next?_eq (formed : window.WellFormed) (event : WindowEvent UInt64) :
    ∃ next, window.next? event = some next ∧ next.WellFormed ∧ next.size = window.size ∧
      next.unpacked = (event.map UInt64.toNat).next window.unpacked := by
  cases event with
  | accept sequence =>
    obtain ⟨next, accepted, nextFormed, sameSize, unpacks⟩ := formed.accept?_eq sequence
    exact ⟨next, by rw [next?, accepted]; rfl, nextFormed, sameSize, unpacks⟩
  | reset base =>
    obtain ⟨resetFormed, unpacks⟩ := formed.reset base
    exact ⟨_, rfl, resetFormed, rfl, unpacks⟩

theorem WellFormed.after?_eq (formed : window.WellFormed) (events : List (WindowEvent UInt64)) :
    ∃ later, window.after? events = some later ∧ later.WellFormed ∧ later.size = window.size ∧
      later.unpacked = window.unpacked.after (events.map (.map UInt64.toNat)) := by
  induction events generalizing window with
  | nil => exact ⟨window, rfl, formed, rfl, rfl⟩
  | cons event rest inductionHypothesis =>
    obtain ⟨next, stepped, nextFormed, nextSize, nextUnpacks⟩ := formed.next?_eq event
    obtain ⟨later, run, laterFormed, laterSize, laterUnpacks⟩ := inductionHypothesis nextFormed
    refine ⟨later, ?_, laterFormed, laterSize.trans nextSize, ?_⟩
    · rw [after?, List.foldlM_cons, stepped]
      exact run
    · rw [laterUnpacks, nextUnpacks]
      rfl

theorem mem_map_toNat {numbers : List UInt64} {word : UInt64} :
    word.toNat ∈ numbers.map UInt64.toNat ↔ word ∈ numbers := by
  constructor
  · intro member
    obtain ⟨other, there, same⟩ := List.mem_map.mp member
    exact UInt64.toNat_inj.mp same ▸ there
  · exact List.mem_map_of_mem

/-- Whatever a window in words accepts and wherever it is reset to, no step wraps or leaves the
words, and the window is the one that knows no words. It then tells apart exactly the numbers
accepted since the last reset and those below it, so a number above all of them is fresh; and it
moves exactly as far as a number beyond it asks for. -/
theorem after?_tells_apart {base size : UInt64} (positive : 0 < size.toNat)
    (allocated : 3 * size.toNat < 2 ^ 64) (events : List (WindowEvent UInt64)) :
    ∃ start window, create base size = .ok start ∧ start.after? events = some window ∧
      window.unpacked = (ReplayWindow.empty base.toNat size.toNat).after
        (events.map (.map UInt64.toNat)) ∧
      window.size = size ∧
      (∀ number, window.contains? number =
        some (decide (number < window.base ∨ number ∈ WindowEvent.history events))) ∧
      (∀ number, (∀ earlier ∈ WindowEvent.history events, earlier < number) →
        ¬number < window.base → window.contains? number = some false) ∧
      ∀ number, ∃ moved next, window.accept? number = some (moved, next) ∧ next.size = size ∧
        next.base.toNat =
          (if number.toNat < window.base.toNat + size.toNat then window.base.toNat
          else if number.toNat < window.base.toNat + 3 * size.toNat / 2 then
            window.base.toNat + size.toNat / 2
          else number.toNat) ∧
        (moved ↔ window.base < next.base) := by
  obtain ⟨start, created, startFormed, startUnpacks⟩ := @create_eq_ok base size positive
    (Nat.le_of_lt_succ (Nat.mul_comm .. ▸ allocated))
  obtain ⟨window, run, formed, sameSize, unpacks⟩ := startFormed.after?_eq events
  have startSize : start.size = size := by
    rw [← UInt64.toNat_inj, ← unpacked_size, startUnpacks]
    rfl
  rw [startUnpacks] at unpacks
  have windowSize := sameSize.trans startSize
  have contains : ∀ number, window.contains? number =
      some (decide (number < window.base ∨ number ∈ WindowEvent.history events)) := by
    intro number
    obtain ⟨_, records⟩ := (ReplayWindow.records_empty positive base.toNat).after
      (events.map (.map UInt64.toNat))
    rw [formed.contains?_eq, Option.some.injEq, Bool.eq_iff_iff, decide_eq_true_eq, unpacks,
      records.contains_iff, ← unpacks, unpacked_base, ← UInt64.lt_iff_toNat_lt]
    refine or_congr_right ?_
    rw [← mem_map_toNat, ← WindowEvent.history_map]
    exact Iff.rfl
  refine ⟨start, window, created, run, unpacks, windowSize, contains, ?_, ?_⟩
  · intro number above notBelow
    rw [contains, decide_eq_false]
    rintro (below | member)
    · exact notBelow below
    · exact UInt64.lt_irrefl number (above number member)
  · intro number
    obtain ⟨next, accepted, -, nextSize, nextUnpacks⟩ := formed.accept?_eq number
    refine ⟨_, next, accepted, nextSize.trans windowSize, ?_, ?_⟩
    · rw [← unpacked_base next, nextUnpacks, ReplayWindow.base_accept, unpacked_base,
        unpacked_size, windowSize, Nat.mul_comm 3]
    · rw [ReplayWindow.moved_accept formed.positive, decide_eq_true_eq, ← nextUnpacks,
        UInt64.lt_iff_toNat_lt]
      exact Iff.rfl

/-- A window of an odd size slides up to the last word, is reset, and slides again. -/
theorem after?_slides_at_last_word :
    ∃ start window, create 0xfffffffffffffffa 5 = .ok start ∧
      start.after? [.accept 0xffffffffffffffff, .reset 7, .accept 13, .accept 3] = some window ∧
      window.base = 9 ∧ window.contains? 13 = some true ∧ window.contains? 8 = some true ∧
      window.contains? 12 = some false ∧
      ∃ next, window.accept? 0xffffffffffffffff = some (true, next) ∧
        next.base = 0xffffffffffffffff := by
  obtain ⟨start, window, created, run, unpacks, -, contains, -, accepts⟩ :=
    @after?_tells_apart 0xfffffffffffffffa 5 (by decide) (by decide)
      [.accept 0xffffffffffffffff, .reset 7, .accept 13, .accept 3]
  have based : window.base = 9 := by
    rw [← UInt64.toNat_inj, ← unpacked_base, unpacks]
    decide
  obtain ⟨moved, next, accepted, -, nextBase, movedIff⟩ := accepts 0xffffffffffffffff
  rw [based] at nextBase movedIff
  have further : next.base = 0xffffffffffffffff := by
    rw [← UInt64.toNat_inj, nextBase]
    decide
  have goes : moved = true := by
    rw [movedIff, further]
    decide
  rw [goes] at accepted
  refine ⟨start, window, created, run, based, ?_, ?_, ?_, next, accepted, further⟩ <;>
    rw [contains, based] <;> decide

end PackedWindow

end Oscore
