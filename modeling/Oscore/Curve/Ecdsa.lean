/-
This file signs with ECDSA on P-256, and verifies.

The secret number of a signature is drawn from the key and the message, so that
signing needs no randomness and one message has one signature.
-/

import Oscore.Curve.P256
import Oscore.Hash.Hkdf

namespace Oscore.Ecdsa

open P256

/-! ### The secret number -/

/-- The state of the generator of secret numbers. -/
structure Generator where
  key : Bytes
  value : Bytes

namespace Generator

/-- The generator after it has taken in some bytes; `separator` tells the occasions apart. -/
def absorb (generator : Generator) (separator : UInt8) (bytes : Bytes) : Generator :=
  let key := Hash.sha256.hmac generator.key (generator.value ++ separator :: bytes)
  { key, value := Hash.sha256.hmac key generator.value }

/-- The generator of a private scalar and a message digest. The digest is taken in with all its
bits, also when it is as large as the order. -/
def start (scalar digest : Nat) : Generator :=
  let seed := Bytes.bigEndian 32 scalar ++ Bytes.bigEndian 32 digest
  let blank : Generator := { key := List.replicate 32 0, value := List.replicate 32 1 }
  (blank.absorb 0 seed).absorb 1 seed

/-- The first number drawn that is neither zero nor as large as the order, in at most `fuel`
draws. A draw misses less than once in four thousand million. -/
def draw : (fuel : Nat) → Generator → Option Nat
  | 0, _ => none
  | fuel + 1, generator =>
    let value := Hash.sha256.hmac generator.key generator.value
    let number := Bytes.toNat value
    if 0 < number ∧ number < order then some number
    else draw fuel (({ generator with value } : Generator).absorb 0 [])

end Generator

/-! ### Signatures -/

/-- The number of a message digest. -/
def digestNumber (message : Bytes) : Nat := Bytes.toNat (Hash.sha256.digest message)

/-- The signature of a message: two numbers of 32 bytes. -/
def sign? (scalar : Nat) (message : Bytes) : Option Bytes := do
  let digest := digestNumber message
  let secret ← (Generator.start scalar digest).draw 64
  let point ← multiple? secret generator
  let first := Residue.ofNat order point.x.value
  let second := (Residue.ofNat order secret).inverse
    * (Residue.ofNat order digest + first * Residue.ofNat order scalar)
  if first = 0 ∨ second = 0 then none
  else some (Bytes.bigEndian 32 first.value ++ Bytes.bigEndian 32 second.value)

/-- The number of a signature that 32 bytes write, if it is neither zero nor as large as the
order. -/
def component? (bytes : Bytes) : Option (Residue order) :=
  if bytes.toNat = 0 then none else Residue.exactly? order bytes.toNat

/-- Whether a signature belongs to a message under a public point. -/
def verify (point : Point) (message signature : Bytes) : Bool :=
  if signature.length = 64 then
    match component? (signature.take 32), component? (signature.drop 32) with
    | some first, some second =>
      let inverse := second.inverse
      let digest := Residue.ofNat order (digestNumber message)
      let sum := Jacobian.add (Jacobian.multiple (digest * inverse).value (.ofPoint generator))
        (Jacobian.multiple (first * inverse).value (.ofPoint point))
      match sum.toPoint? with
      | some point => Residue.ofNat order point.x.value = first
      | none => false
    | _, _ => false
  else false

end Oscore.Ecdsa
