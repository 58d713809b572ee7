/-
This file encrypts single blocks with AES.

The substitution is defined by what it is: the inverse in the field of 256
elements, followed by an affine map. Its table is computed from that once.
Only encryption is here, since every mode the library uses runs the cipher
forward.
-/

import Oscore.Bytes

namespace Oscore.Aes

/-- A block of sixteen bytes, column after column. -/
abbrev Block := Vector UInt8 16

/-- The block that starts with the given bytes and goes on with zeros. -/
def Block.ofBytes (bytes : Bytes) : Block := Vector.ofFn fun index => bytes.getD index 0

/-- The byte by byte exclusive or of two blocks. -/
def Block.xor (left right : Block) : Block := Vector.zipWith (· ^^^ ·) left right

/-! ### The field of 256 elements -/

/-- Twice a field element. -/
def double (element : UInt8) : UInt8 :=
  (element <<< 1) ^^^ (if element < 0x80 then 0 else 0x1b)

/-- The product of two field elements; the first is read bit by bit, lowest first. -/
def multiply (left right : UInt8) : UInt8 :=
  ((List.range 8).foldl (fun (product, power) position =>
    (if left.toNat.testBit position then product ^^^ power else product, double power))
    ((0 : UInt8), right)).1

/-- A field element to the power 254, which is its inverse, or zero for zero. -/
def inverse (element : UInt8) : UInt8 :=
  let square (element : UInt8) : UInt8 := multiply element element
  let third := multiply (square element) element
  let seventh := multiply (square third) element
  let fifteenth := multiply (square seventh) element
  let thirtyFirst := multiply (square fifteenth) element
  let sixtyThird := multiply (square thirtyFirst) element
  square (multiply (square sixtyThird) element)

/-- The substitute of a byte: its inverse, added to four of its rotations and a constant. -/
def substitute (byte : UInt8) : UInt8 :=
  let inverted := inverse byte
  let rotated (count : UInt8) : UInt8 := (inverted <<< count) ||| (inverted >>> (8 - count))
  inverted ^^^ rotated 1 ^^^ rotated 2 ^^^ rotated 3 ^^^ rotated 4 ^^^ 0x63

/-- All substitutes. -/
def substitutes : Vector UInt8 256 := Vector.ofFn fun byte => substitute (UInt8.ofNat byte)

/-- The substitute of a byte, from the table. -/
def substituted (byte : UInt8) : UInt8 := substitutes.get byte.toFin

/-! ### Round keys -/

/-- The schedule prolonged by `count` words of four bytes, for a key of `keyWords` words. The
latest word stands first, `position` counts the words so far, and `constant` is the next round
constant. -/
def prolong (keyWords : Nat) :
    (count position : Nat) → (constant : UInt8) → List Bytes → List Bytes
  | 0, _, _, recent => recent
  | count + 1, position, constant, recent =>
    let last := recent.getD 0 []
    let turned := (last.drop 1 ++ last.take 1).map substituted
    let mixed :=
      if position % keyWords = 0 then Bytes.xor turned [constant, 0, 0, 0]
      else if keyWords > 6 ∧ position % keyWords = 4 then last.map substituted
      else last
    let word := Bytes.xor (recent.getD (keyWords - 1) []) mixed
    let constant := if position % keyWords = 0 then double constant else constant
    prolong keyWords count (position + 1) constant (word :: recent)

/-- The round keys of a key of 16 or 32 bytes: six more than it has words, and one. -/
def roundKeys (key : Bytes) : List Block :=
  let keyWords := key.length / 4
  let rounds := keyWords + 6
  let words := (Bytes.pieces 4 keyWords key).reverse
  let all := (prolong keyWords (4 * (rounds + 1) - keyWords) keyWords 1 words).reverse
  (Bytes.pieces 16 (rounds + 1) all.flatten).map Block.ofBytes

/-! ### Rounds -/

/-- Every byte substituted, and every row turned by its number. -/
def substituteAndTurn (block : Block) : Block :=
  Vector.ofFn fun index =>
    substituted (block.get (Fin.ofNat 16 (index.val + 4 * (index.val % 4))))

/-- Every column multiplied by the mixing matrix. -/
def mix (block : Block) : Block :=
  Vector.ofFn fun index =>
    let column := index.val - index.val % 4
    let cell (distance : Nat) : UInt8 :=
      block.get (Fin.ofNat 16 (column + (index.val + distance) % 4))
    double (cell 0) ^^^ (double (cell 1) ^^^ cell 1) ^^^ cell 2 ^^^ cell 3

/-- The rounds that follow the first round key; the last does not mix. -/
def rounds : List Block → Block → Block
  | [], block => block
  | [key], block => (substituteAndTurn block).xor key
  | key :: keys, block => rounds keys ((mix (substituteAndTurn block)).xor key)

/-- A block encrypted under round keys. -/
def encrypt (keys : List Block) (block : Block) : Block :=
  match keys with
  | [] => block
  | key :: keys => rounds keys (block.xor key)

end Oscore.Aes
