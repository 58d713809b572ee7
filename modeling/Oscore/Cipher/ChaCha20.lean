/-
This file produces the ChaCha20 keystream.

A block is made from sixteen words: four constants, the key, a block counter
and the nonce. Ten double rounds mix them, and the result is added to where it
started from.
-/

import Oscore.Bytes

namespace Oscore.ChaCha20

/-- The sixteen words that the rounds work on. -/
abbrev Words := Vector UInt32 16

/-- The constant words. -/
def constants : List UInt32 := [0x61707865, 0x3320646e, 0x79622d32, 0x6b206574]

/-- The little-endian words of a byte string. -/
def words (bytes : Bytes) : List UInt32 :=
  (Bytes.chunks 4 bytes).map fun word => UInt32.ofNat word.toNatReversed

/-- The words of a key, a block counter and a nonce. -/
def start (key : Bytes) (counter : Nat) (nonce : Bytes) : Words :=
  let all := constants ++ words key ++ UInt32.ofNat counter :: words nonce
  Vector.ofFn fun index => all.getD index 0

/-- A word rotated to the left. -/
def rotate (word count : UInt32) : UInt32 := (word <<< count) ||| (word >>> (32 - count))

/-- The place of a word. -/
def place (number : Nat) : Fin 16 := ⟨number % 16, Nat.mod_lt number (by decide)⟩

/-- A quarter round on four of the words, given by their numbers. -/
def quarter (state : Words) (first second third fourth : Nat) : Words :=
  let a := place first
  let b := place second
  let c := place third
  let d := place fourth
  let state := state.set a (state.get a + state.get b)
  let state := state.set d (rotate (state.get d ^^^ state.get a) 16)
  let state := state.set c (state.get c + state.get d)
  let state := state.set b (rotate (state.get b ^^^ state.get c) 12)
  let state := state.set a (state.get a + state.get b)
  let state := state.set d (rotate (state.get d ^^^ state.get a) 8)
  let state := state.set c (state.get c + state.get d)
  state.set b (rotate (state.get b ^^^ state.get c) 7)

/-- A round down the columns and a round down the diagonals. -/
def doubleRound (state : Words) : Words :=
  let state := quarter (quarter state 0 4 8 12) 1 5 9 13
  let state := quarter (quarter state 2 6 10 14) 3 7 11 15
  let state := quarter (quarter state 0 5 10 15) 1 6 11 12
  quarter (quarter state 2 7 8 13) 3 4 9 14

/-- The 64 bytes of one block of the keystream. -/
def block (key : Bytes) (counter : Nat) (nonce : Bytes) : Bytes :=
  let first := start key counter nonce
  let last := (List.range 10).foldl (fun state _ => doubleRound state) first
  (Vector.zipWith (· + ·) first last).toList.flatMap fun word =>
    Bytes.littleEndian 4 word.toNat

@[simp] theorem length_block (key : Bytes) (counter : Nat) (nonce : Bytes) :
    (block key counter nonce).length = 64 := by
  simp only [block, List.length_flatMap, Bytes.length_littleEndian, List.map_const',
    List.sum_replicate_nat, Vector.length_toList]

end Oscore.ChaCha20
