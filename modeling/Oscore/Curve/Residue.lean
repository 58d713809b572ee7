/-
This file computes with residues: numbers modulo a fixed number.

A residue holds a number that is its own remainder, so that two residues are
equal when their numbers are. Powers and inverses come from repeated
multiplication; an inverse is right when the modulus is a prime.
-/

import Oscore.Curve.Repeated

namespace Oscore

/-- A number modulo another. -/
@[ext] structure Residue (modulus : Nat) where
  /-- The number. -/
  value : Nat
  /-- The number lies below the modulus. -/
  reduced : value % modulus = value
  deriving DecidableEq, Repr

namespace Residue

variable {modulus : Nat}

/-- The residue of a number. -/
def ofNat (modulus number : Nat) : Residue modulus :=
  ⟨number % modulus, Nat.mod_mod number modulus⟩

/-- The residue that a number is itself, if it lies below the modulus. -/
def exactly? (modulus number : Nat) : Option (Residue modulus) :=
  if reduced : number % modulus = number then some ⟨number, reduced⟩ else none

instance {literal : Nat} : OfNat (Residue modulus) literal := ⟨ofNat modulus literal⟩

instance : Add (Residue modulus) := ⟨fun left right => ofNat modulus (left.value + right.value)⟩

instance : Mul (Residue modulus) := ⟨fun left right => ofNat modulus (left.value * right.value)⟩

instance : Neg (Residue modulus) := ⟨fun residue => ofNat modulus (modulus - residue.value)⟩

instance : Sub (Residue modulus) :=
  ⟨fun left right => ofNat modulus (left.value + (modulus - right.value))⟩

/-- Whether the number is odd. -/
def isOdd (residue : Residue modulus) : Bool := residue.value % 2 = 1

/-- A power of a residue. -/
def power (base : Residue modulus) (exponent : Nat) : Residue modulus :=
  Repeated.combined (· * ·) 1 base exponent

/-- The inverse modulo a prime, or zero for zero. -/
def inverse (residue : Residue modulus) : Residue modulus := residue.power (modulus - 2)

end Residue

end Oscore
