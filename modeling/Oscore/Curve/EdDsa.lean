/-
This file signs with EdDSA on Edwards25519, verifies, and agrees on secrets.

A key is a seed of 32 bytes. Its digest gives the secret scalar and the secret
that takes the place of randomness when signing.
-/

import Oscore.Curve.Edwards25519
import Oscore.Hash.Hkdf

namespace Oscore.EdDsa

open Edwards25519

/-! ### Keys -/

/-- The scalar of 32 bytes: a multiple of eight whose highest bit is bit 254. -/
def clamp (bytes : Bytes) : Nat :=
  let number := bytes.toNatReversed % (1 <<< 254)
  number - number % 8 + (1 <<< 254)

/-- The secret scalar of a seed. -/
def secretScalar (seed : Bytes) : Nat := clamp ((Hash.sha512.digest seed).take 32)

/-- The part of a seed's digest that takes the place of randomness. -/
def secretTail (seed : Bytes) : Bytes := (Hash.sha512.digest seed).drop 32

/-- The encoded public point of a seed. -/
def publicKey (seed : Bytes) : Bytes := (generator.multiple (secretScalar seed)).encode

/-- Whether a public key encodes a point. -/
def isPublicKey (encoding : Bytes) : Bool := (Point.decode? encoding).isSome

/-! ### Signatures -/

/-- The digest of some bytes as a scalar. -/
def digestScalar (bytes : Bytes) : Residue order :=
  .ofNat order (Bytes.toNatReversed (Hash.sha512.digest bytes))

/-- The signature of a message: an encoded point and a scalar. -/
def sign (seed message : Bytes) : Bytes :=
  let secret := digestScalar (secretTail seed ++ message)
  let point := (generator.multiple secret.value).encode
  let challenge := digestScalar (point ++ (publicKey seed ++ message))
  let scalar := secret + challenge * .ofNat order (secretScalar seed)
  point ++ Bytes.littleEndian 32 scalar.value

/-- Whether a signature belongs to a message under a public key. The point that the signature
names is compared in its encoded form. -/
def verify (encoding message signature : Bytes) : Bool :=
  let claimed := signature.take 32
  let scalar := Bytes.toNatReversed (signature.drop 32)
  match Point.decode? encoding with
  | some point =>
    let challenge := digestScalar (claimed ++ (encoding ++ message))
    let sum := (generator.multiple scalar).add (point.negate.multiple challenge.value)
    signature.length = 64 && scalar < order && sum.encode == claimed
  | none => false

/-! ### Agreement -/

/-- The shared secret of a seed and a public key: the Montgomery coordinate of their product. -/
def agree (seed encoding : Bytes) : Bytes :=
  montgomeryMultiple (secretScalar seed) (montgomery (ordinate encoding))

end Oscore.EdDsa
