/-
This file computes on the Edwards curve over the integers modulo `2 ^ 255 - 19`
and on its Montgomery form.

Points are kept in extended coordinates, in which one formula adds any two
points. An encoding is the `y` of a point with the parity of `x` in its top
bit; numbers of `y` that are not reduced are read all the same.
-/

import Oscore.Bytes
import Oscore.Curve.Residue

namespace Oscore.Edwards25519

/-! ### Numbers -/

/-- The number of field elements, `2 ^ 255 - 19`. -/
def prime : Nat := 0x7fffffffffffffffffffffffffffffffffffffffffffffffffffffffffffffed

/-- The order of the generator. -/
def order : Nat := 0x1000000000000000000000000000000014def9dea2f79cd65812631a5cf5d3ed

/-- A field element. -/
abbrev Element := Residue prime

/-- The constant of the curve `-x² + y² = 1 + d x² y²`. -/
def constant : Element :=
  .ofNat prime 0x52036cee2b6ffe738cc740797779e89800700a4d4141d8ab75eb4dca135978a3

/-- A square root of minus one. -/
def rootOfMinusOne : Element := Residue.power 2 ((prime - 1) / 4)

/-! ### Points -/

/-- A point in extended coordinates: `x / z`, `y / z`, and `t = x y / z`. -/
structure Point where
  x : Element
  y : Element
  z : Element
  t : Element

namespace Point

/-- The neutral point. -/
def neutral : Point := ⟨0, 1, 1, 0⟩

/-- A point from its affine coordinates. -/
def ofAffine (x y : Element) : Point := ⟨x, y, 1, x * y⟩

/-- The sum of two points. -/
def add (left right : Point) : Point :=
  let a := (left.y - left.x) * (right.y - right.x)
  let b := (left.y + left.x) * (right.y + right.x)
  let c := left.t * 2 * constant * right.t
  let d := left.z * 2 * right.z
  let e := b - a
  let f := d - c
  let g := d + c
  let h := b + a
  ⟨e * f, g * h, f * g, e * h⟩

/-- The opposite point. -/
def negate (point : Point) : Point := ⟨-point.x, point.y, point.z, -point.t⟩

/-- A point added to itself `count` times. -/
def multiple (count : Nat) (point : Point) : Point := Repeated.combined add neutral point count

/-- The encoding of a point. -/
def encode (point : Point) : Bytes :=
  let inverse := point.z.inverse
  let x := point.x * inverse
  let y := point.y * inverse
  Bytes.littleEndian 32 (y.value + if x.isOdd then 1 <<< 255 else 0)

end Point

/-! ### Encodings -/

/-- The `y` that an encoding writes. -/
def ordinate (encoding : Bytes) : Element :=
  .ofNat prime (encoding.toNatReversed % (1 <<< 255))

/-- A root of a quotient of two elements, if there is one. -/
def rootOfQuotient? (numerator denominator : Element) : Option Element :=
  let cube := denominator * denominator * denominator
  let seventh := cube * cube * denominator
  let root := numerator * cube * (numerator * seventh).power ((prime - 5) / 8)
  let check := denominator * root * root
  if check = numerator then some root
  else if check = -numerator then some (root * rootOfMinusOne)
  else none

/-- The point of an encoding, if its `y` belongs to one. -/
def Point.decode? (encoding : Bytes) : Option Point :=
  let y := ordinate encoding
  let square := y * y
  (rootOfQuotient? (square - 1) (constant * square + 1)).map fun root =>
    let odd := encoding.toNatReversed.testBit 255
    .ofAffine (if root.isOdd = odd then root else -root) y

/-- The generator, whose `y` is four fifths and whose `x` is even. -/
def generator : Point :=
  .ofAffine
    (.ofNat prime 0x216936d3cd6e53fec0a4e231fdd6dc5c692cc7609525a7b2c9562d608f25d51a)
    (.ofNat prime 0x6666666666666666666666666666666666666666666666666666666666666658)

/-! ### The Montgomery form -/

/-- The Montgomery coordinate of the points with this `y`, zero for the neutral point. -/
def montgomery (y : Element) : Element := (1 + y) * (1 - y).inverse

/-- Two neighbouring multiples of a point, each given by a fraction. -/
structure Ladder where
  lowX : Element
  lowZ : Element
  highX : Element
  highZ : Element

/-- The ladder with its two sides exchanged if asked. -/
def Ladder.exchanged (ladder : Ladder) (exchange : Bool) : Ladder :=
  if exchange then ⟨ladder.highX, ladder.highZ, ladder.lowX, ladder.lowZ⟩ else ladder

/-- One step up the ladder over `u`: the low side is doubled and the sides are added. -/
def Ladder.step (u : Element) (ladder : Ladder) : Ladder :=
  let lowSum := ladder.lowX + ladder.lowZ
  let lowDifference := ladder.lowX - ladder.lowZ
  let lowSumSquare := lowSum * lowSum
  let lowDifferenceSquare := lowDifference * lowDifference
  let difference := lowSumSquare - lowDifferenceSquare
  let crossed := (ladder.highX - ladder.highZ) * lowSum
  let straight := (ladder.highX + ladder.highZ) * lowDifference
  let sum := crossed + straight
  let rest := crossed - straight
  { lowX := lowSumSquare * lowDifferenceSquare
    lowZ := difference * (lowSumSquare + 121665 * difference)
    highX := sum * sum
    highZ := u * (rest * rest) }

/-- The ladder after the lowest `bits` bits of the scalar, given the ladder before them. -/
def Ladder.climb (scalar : Nat) (u : Element) : (bits : Nat) → Ladder → Ladder
  | 0, ladder => ladder
  | bits + 1, ladder =>
    let bit := scalar.testBit bits
    Ladder.climb scalar u bits (((ladder.exchanged bit).step u).exchanged bit)

/-- The Montgomery coordinate of a multiple of a point, as bytes. -/
def montgomeryMultiple (scalar : Nat) (u : Element) : Bytes :=
  let ladder := Ladder.climb scalar u 255 ⟨1, 0, u, 1⟩
  Bytes.littleEndian 32 (ladder.lowX * ladder.lowZ.inverse).value

end Oscore.Edwards25519
