/-
This file computes on the curve P-256 and with the keys that live there.

Points that a key may have are affine. Sums are computed in Jacobian
coordinates, in which the neutral point is one whose last coordinate is zero.
-/

import Oscore.Bytes
import Oscore.Curve.Residue

namespace Oscore.P256

/-! ### Numbers -/

/-- The number of field elements. -/
def prime : Nat := 0xffffffff00000001000000000000000000000000ffffffffffffffffffffffff

/-- The number of points. -/
def order : Nat := 0xffffffff00000000ffffffffffffffffbce6faada7179e84f3b9cac2fc632551

/-- A field element. -/
abbrev Element := Residue prime

/-- The constant of the curve `y² = x³ - 3x + b`. -/
def constant : Element :=
  .ofNat prime 0x5ac635d8aa3a93e7b3ebbd55769886bc651d06b0cc53b0f63bce3c3e27d2604b

/-! ### Points -/

/-- A point other than the neutral one. -/
structure Point where
  x : Element
  y : Element
  deriving DecidableEq, Repr

/-- The generator. -/
def generator : Point where
  x := .ofNat prime 0x6b17d1f2e12c4247f8bce6e563a440f277037d812deb33a0f4a13945d898c296
  y := .ofNat prime 0x4fe342e2fe1a7f9b8ee7eb4a7c0f9e162bce33576b315ececbb6406837bf51f5

/-- The value that the square of `y` has on the curve. -/
def curveValue (x : Element) : Element := x * x * x - 3 * x + constant

/-- Whether a point lies on the curve. -/
def Point.onCurve (point : Point) : Bool := point.y * point.y = curveValue point.x

/-- A point in Jacobian coordinates. -/
structure Jacobian where
  x : Element
  y : Element
  z : Element

namespace Jacobian

/-- The neutral point. -/
def neutral : Jacobian := ⟨1, 1, 0⟩

/-- A point in Jacobian coordinates. -/
def ofPoint (point : Point) : Jacobian := ⟨point.x, point.y, 1⟩

/-- The affine coordinates, unless the point is neutral. -/
def toPoint? (point : Jacobian) : Option Point :=
  if point.z = 0 then none
  else
    let inverse := point.z.inverse
    let square := inverse * inverse
    some ⟨point.x * square, point.y * (square * inverse)⟩

/-- Twice a point. -/
def double (point : Jacobian) : Jacobian :=
  let delta := point.z * point.z
  let gamma := point.y * point.y
  let beta := point.x * gamma
  let alpha := 3 * (point.x - delta) * (point.x + delta)
  let x := alpha * alpha - 8 * beta
  let sum := point.y + point.z
  ⟨x, alpha * (4 * beta - x) - 8 * gamma * gamma, sum * sum - gamma - delta⟩

/-- The sum of two points. -/
def add (left right : Jacobian) : Jacobian :=
  if left.z = 0 then right
  else if right.z = 0 then left
  else
    let leftSquare := left.z * left.z
    let rightSquare := right.z * right.z
    let leftX := left.x * rightSquare
    let rightX := right.x * leftSquare
    let leftY := left.y * right.z * rightSquare
    let rightY := right.y * left.z * leftSquare
    if leftX = rightX then
      if leftY = rightY then double left else neutral
    else
      let run := rightX - leftX
      let rise := rightY - leftY
      let runSquare := run * run
      let runCube := run * runSquare
      let shifted := leftX * runSquare
      let x := rise * rise - runCube - 2 * shifted
      ⟨x, rise * (shifted - x) - leftY * runCube, run * left.z * right.z⟩

/-- A point added to itself `count` times. -/
def multiple (count : Nat) (point : Jacobian) : Jacobian :=
  Repeated.combined add neutral point count

end Jacobian

/-- A point added to itself `count` times, unless the sum is neutral. -/
def multiple? (count : Nat) (point : Point) : Option Point :=
  (Jacobian.multiple count (.ofPoint point)).toPoint?

/-! ### Encodings -/

/-- The field element that 32 bytes write, if there is one. -/
def element? (bytes : Bytes) : Option Element :=
  Residue.exactly? prime bytes.toNat

/-- A square root, if there is one. -/
def root? (square : Element) : Option Element :=
  let root := square.power ((prime + 1) / 4)
  if root * root = square then some root else none

/-- The point at `x` whose `y` is chosen from a root and its negative, if there is one. -/
def pointAt? (x : Element) (choose : Element → Element → Element) : Option Point :=
  (root? (curveValue x)).map fun root => ⟨x, choose root (-root)⟩

/-- Of a root and its negative, the one with this parity. -/
def ofParity (odd : Bool) (root negative : Element) : Element :=
  if root.isOdd = odd then root else negative

/-- Of a root and its negative, the smaller number. -/
def smaller (root negative : Element) : Element :=
  if root.value ≤ negative.value then root else negative

/-- The point that bytes encode: both coordinates after `04`, or `x` alone after `02` or `03`,
which give the parity of `y`, or after `05`, which stands for the smaller `y`. -/
def Point.decode? : Bytes → Option Point
  | [] => none
  | form :: coordinates =>
    if form = 4 ∧ coordinates.length = 64 then
      match element? (coordinates.take 32), element? (coordinates.drop 32) with
      | some x, some y => if Point.onCurve ⟨x, y⟩ then some ⟨x, y⟩ else none
      | _, _ => none
    else if coordinates.length = 32 then
      match element? coordinates with
      | none => none
      | some x =>
        if form = 2 then pointAt? x (ofParity false)
        else if form = 3 then pointAt? x (ofParity true)
        else if form = 5 then pointAt? x smaller
        else none
    else none

/-- The encoding of a point with both coordinates. -/
def Point.encode (point : Point) : Bytes :=
  4 :: (Bytes.bigEndian 32 point.x.value ++ Bytes.bigEndian 32 point.y.value)

/-- The private scalar of 24 to 32 bytes: neither zero nor as large as the order. -/
def scalar? (bytes : Bytes) : Option Nat :=
  if 24 ≤ bytes.length ∧ bytes.length ≤ 32 ∧ 0 < bytes.toNat ∧ bytes.toNat < order then
    some bytes.toNat
  else none

/-- The public point of a private scalar. -/
def publicPoint? (scalar : Nat) : Option Point := multiple? scalar generator

/-- The shared secret of a private scalar and a public point: the `x` of their product. The
neutral point has no `x` and counts as zero; no scalar below the order reaches it. -/
def agree (scalar : Nat) (point : Point) : Bytes :=
  match multiple? scalar point with
  | some product => Bytes.bigEndian 32 product.x.value
  | none => Bytes.bigEndian 32 0

end Oscore.P256
