/-
This file keeps a replay window in machine words.

The bits of a window lie in words of 64 bits, and its base and its size are
words themselves. Sums, products and differences of words may leave the range of
a word, and a bit may lie outside the words that are there. Here every such step
is partial: an operation whose arithmetic wraps or whose index is out of bounds
has no result. Entities keep the same window over numbers of any size.
-/

import Oscore.ReplayWindow

namespace Oscore

/-! ### Words -/

/-- The sum of two words, if it is a word. -/
def wordSum? (left right : UInt64) : Option UInt64 :=
  if left.toNat + right.toNat ≤ wordCeiling then some (left + right) else none

/-- The difference of two words, if it is a word. -/
def wordDifference? (left right : UInt64) : Option UInt64 :=
  if right ≤ left then some (left - right) else none

/-- The product of two words, if it is a word. -/
def wordProduct? (left right : UInt64) : Option UInt64 :=
  if left.toNat * right.toNat ≤ wordCeiling then some (left * right) else none

/-! ### Bits in words -/

namespace PackedBits

/-- Whether a bit is set, if there is such a bit. -/
def test? (words : List UInt64) (index : UInt64) : Option Bool :=
  words[(index / 64).toNat]?.map fun word => (word >>> (index % 64)) &&& 1 == 1

/-- The words with a bit set, if there is such a bit. -/
def mark? (words : List UInt64) (index : UInt64) : Option (List UInt64) :=
  words[(index / 64).toNat]?.map fun word =>
    words.set (index / 64).toNat (word ||| 1 <<< (index % 64))

/-- The shifted words after one more bit was copied from further up. -/
def copy? (words : List UInt64) (distance : UInt64) (shifted : List UInt64) (index : Nat) :
    Option (List UInt64) := do
  let source ← wordSum? (.ofNat index) distance
  if ← test? words source then mark? shifted (.ofNat index) else some shifted

/-- The words whose lowest bits are so many bits from further up, and whose other bits are not
set. -/
def shift? (words : List UInt64) (distance count : UInt64) : Option (List UInt64) :=
  (List.range count.toNat).foldlM (copy? words distance) (List.replicate words.length 0)

end PackedBits

/-! ### Windows -/

/-- A replay window in words. -/
structure PackedWindow where
  /-- The smallest number that the window still tells apart. -/
  base : UInt64
  /-- How many numbers the window covers. -/
  size : UInt64
  /-- The accepted numbers: bit `offset` of all words stands for `base + offset`. -/
  words : List UInt64
  deriving DecidableEq, Repr, Inhabited

namespace PackedWindow

/-- A window in which nothing was accepted; its size must not be zero. -/
def create (base size : UInt64) : Except Refusal PackedWindow :=
  if size = 0 then .error (.bound 0 wordCeiling)
  else .ok ⟨base, size, List.replicate ((size.toNat + 63) / 64) 0⟩

/-- Whether a number counts as accepted. -/
def contains? (window : PackedWindow) (sequence : UInt64) : Option Bool := do
  if sequence < window.base then return true
  let offset ← wordDifference? sequence window.base
  if window.size ≤ offset then return false
  PackedBits.test? window.words offset

/-- The window with one of its numbers accepted, by its offset. -/
def mark? (window : PackedWindow) (offset : UInt64) : Option PackedWindow := do
  return { window with words := ← PackedBits.mark? window.words offset }

/-- The window further up by some numbers; the lowest are forgotten. -/
def slide? (window : PackedWindow) (distance : UInt64) : Option PackedWindow := do
  let count ← wordDifference? window.size distance
  let words ← PackedBits.shift? window.words distance count
  let base ← wordSum? window.base distance
  return { window with base, words }

/-- A window of the same size at the given base in which nothing was accepted. -/
def reset (window : PackedWindow) (base : UInt64) : PackedWindow :=
  { window with base, words := List.replicate window.words.length 0 }

/-- Accepts a number. The answer says whether the window moved. -/
def accept? (window : PackedWindow) (sequence : UInt64) : Option (Bool × PackedWindow) := do
  if sequence < window.base then return (false, window)
  let offset ← wordDifference? sequence window.base
  if offset < window.size then return (false, ← window.mark? offset)
  if offset < (← wordProduct? window.size 3) / 2 then
    let half := window.size / 2
    let moved ← window.slide? half
    return (true, ← moved.mark? (← wordDifference? offset half))
  return (true, ← (window.reset sequence).mark? 0)

end PackedWindow

end Oscore
