/-
This file computes the two authenticators that are polynomials in a key.

GHASH evaluates a polynomial over the field of `2 ^ 128` elements, Poly1305 one
over the integers modulo `2 ^ 130 - 5`. Both read a message in blocks of
sixteen bytes.
-/

import Oscore.Bytes

namespace Oscore

/-! ### GHASH -/

namespace Ghash

/-- The product of two field elements, in which the highest bit is the constant term. The first
is read from its bit `count` down. -/
def multiplyFrom (left : BitVec 128) : (count : Nat) → (power product : BitVec 128) → BitVec 128
  | 0, _, product => product
  | count + 1, power, product =>
    let product := if left.getLsbD count then product ^^^ power else product
    let next := if power.getLsbD 0 then (power >>> 1) ^^^ (0xe1#128 <<< 120) else power >>> 1
    multiplyFrom left count next product

/-- The product of two field elements. -/
def multiply (left right : BitVec 128) : BitVec 128 := multiplyFrom left 128 right 0

/-- The field element of a block. -/
def element (block : Bytes) : BitVec 128 := BitVec.ofNat 128 block.toNat

/-- The value of the polynomial with these blocks as coefficients at the key. -/
def evaluate (key : BitVec 128) (message : Bytes) : BitVec 128 :=
  (Bytes.chunks 16 message).foldl (fun value block => multiply (value ^^^ element block) key) 0

end Ghash

/-! ### Poly1305 -/

namespace Poly1305

/-- The modulus, `2 ^ 130 - 5`. -/
def modulus : Nat := 0x3fffffffffffffffffffffffffffffffb

/-- The point at which the polynomial is evaluated: some bits of the key are cleared. -/
def clamp (number : Nat) : Nat := number &&& 0x0ffffffc0ffffffc0ffffffc0fffffff

/-- The coefficient of a block: its number with one more bit behind its last byte. -/
def coefficient (block : Bytes) : Nat := block.toNatReversed + (1 <<< (8 * block.length))

/-- The tag of a message under a key of 32 bytes. -/
def tag (key message : Bytes) : Bytes :=
  let point := clamp (Bytes.toNatReversed (key.take 16))
  let value := (Bytes.chunks 16 message).foldl
    (fun value block => (value + coefficient block) * point % modulus) 0
  Bytes.littleEndian 16 (value + Bytes.toNatReversed (key.drop 16))

@[simp] theorem length_tag (key message : Bytes) : (tag key message).length = 16 := by
  simp [tag]

end Poly1305

end Oscore
