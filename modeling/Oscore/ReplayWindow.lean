/-
This file keeps the sequence numbers that a recipient has accepted.

A window covers `size` numbers from `base` on and remembers which of them were
accepted. Numbers below the window count as accepted. A number up to half a
window beyond the end slides the window by half its size; a number further
ahead starts a new window at that number and forgets the rest.
-/

import Oscore.Limits

namespace Oscore

/-- A sliding window over sequence numbers. -/
structure ReplayWindow where
  /-- The smallest number that the window still tells apart. -/
  base : Nat
  /-- How many numbers the window covers. -/
  size : Nat
  /-- The accepted numbers: bit `offset` stands for `base + offset`. -/
  seen : Nat
  deriving DecidableEq, Repr, Inhabited

namespace ReplayWindow

/-- A window in which nothing was accepted. -/
def empty (base size : Nat) : ReplayWindow := ⟨base, size, 0⟩

/-- A window in which nothing was accepted; its size must not be zero. -/
def create (base size : Nat) : Except Refusal ReplayWindow :=
  if size = 0 then .error (.bound 0 wordCeiling) else .ok (empty base size)

/-- Whether a number counts as accepted. -/
def contains (window : ReplayWindow) (sequence : Nat) : Bool :=
  if sequence < window.base then true
  else if window.size ≤ sequence - window.base then false
  else window.seen.testBit (sequence - window.base)

/-- The window with one of its numbers accepted, by its offset. -/
def mark (window : ReplayWindow) (offset : Nat) : ReplayWindow :=
  { window with seen := window.seen ||| (1 <<< offset) }

/-- The window further up by some numbers; the lowest are forgotten. -/
def slide (window : ReplayWindow) (distance : Nat) : ReplayWindow :=
  { window with base := window.base + distance, seen := window.seen >>> distance }

/-- Accepts a number. The answer says whether the window moved. -/
def accept (window : ReplayWindow) (sequence : Nat) : Bool × ReplayWindow :=
  if sequence < window.base then (false, window)
  else
    let offset := sequence - window.base
    if offset < window.size then (false, window.mark offset)
    else if offset < window.size * 3 / 2 then
      (true, (window.slide (window.size / 2)).mark (offset - window.size / 2))
    else (true, (empty sequence window.size).mark 0)

@[simp] theorem size_accept (window : ReplayWindow) (sequence : Nat) :
    (window.accept sequence).2.size = window.size := by
  simp only [accept]
  repeat' split
  all_goals rfl

/-- A window of the same size at zero in which nothing was accepted. -/
def cleared (window : ReplayWindow) : ReplayWindow := empty 0 window.size

/-- A window of the same size at the given base in which nothing was accepted. -/
def reset (window : ReplayWindow) (base : Nat) : ReplayWindow := empty base window.size

/-! ### The accepted numbers as ranges -/

/-- The ranges of set bits of a number, highest first, in at most `fuel` steps. -/
def bitRanges : (fuel : Nat) → Nat → List (Nat × Nat)
  | 0, _ => []
  | fuel + 1, bits =>
    if bits = 0 then []
    else
      let last := bits.log2
      let gaps := (1 <<< (last + 1)) - 1 - bits
      if gaps = 0 then [(0, last)]
      else (gaps.log2 + 1, last) :: bitRanges fuel (bits % (1 <<< gaps.log2))

/-- The accepted numbers that the window covers, as ascending ranges of neighbours. -/
def ranges (window : ReplayWindow) : List (Nat × Nat) :=
  ((bitRanges (window.size + 1) window.seen).map fun (first, last) =>
    (window.base + first, window.base + last)).reverse

end ReplayWindow

end Oscore
