/-
This file defines the keys that members of a group hold.

A key lies on P-256 or on Edwards25519, with or without its private half, and
may declare the algorithm that it is meant for. It signs messages, verifies
signatures, and agrees with a key of the same curve on a shared secret.
-/

import Oscore.Curve.Ecdsa
import Oscore.Curve.EdDsa

namespace Oscore

/-- What a key consists of: a public half, and possibly a private one. -/
inductive KeyMaterial
  /-- A point of P-256 and its scalar. -/
  | p256 (scalar : Option Nat) (point : P256.Point)
  /-- An encoded point of Edwards25519 and its seed. -/
  | ed25519 (seed : Option Bytes) (encoding : Bytes)
  deriving DecidableEq, Repr

/-- A key for countersignatures and for agreement. -/
structure SigningKey where
  /-- The only algorithm that the key may be used with, if it declares one. -/
  declared : Option SignatureAlgorithm
  /-- What the key consists of. -/
  material : KeyMaterial
  deriving DecidableEq, Repr

namespace SigningKey

/-! ### Making keys -/

/-- A key of P-256 from its private scalar. -/
def ofScalar (bytes : Bytes) : Except Failure SigningKey :=
  match P256.scalar? bytes with
  | none => .error (.key .scalar)
  | some scalar =>
    match P256.publicPoint? scalar with
    | none => .error (.key .scalar)
    | some point => .ok { declared := none, material := .p256 (some scalar) point }

/-- A key of P-256 from an encoded public point. -/
def ofPoint (bytes : Bytes) : Except Failure SigningKey :=
  match P256.Point.decode? bytes with
  | none => .error (.key .point)
  | some point => .ok { declared := none, material := .p256 none point }

/-- A key of Edwards25519 from its seed. -/
def ofSeed (bytes : Bytes) : Except Failure SigningKey :=
  if bytes.length = 32 then
    .ok { declared := none, material := .ed25519 (some bytes) (EdDsa.publicKey bytes) }
  else .error (.key .seedLength)

/-- A key of Edwards25519 from an encoded public point, which is kept as it is. -/
def ofEncoding (bytes : Bytes) : Except Failure SigningKey :=
  if bytes.length = 32 then
    if EdDsa.isPublicKey bytes then .ok { declared := none, material := .ed25519 none bytes }
    else .error (.key .encoding)
  else .error (.key .encodingLength)

/-- The key declared to be for one algorithm only. -/
def declare (key : SigningKey) (algorithm : SignatureAlgorithm) : SigningKey :=
  { key with declared := some algorithm }

/-- A private key that declares the algorithm, made from random bytes; some few byte strings
make no key. -/
def generate (algorithm : SignatureAlgorithm) (random : Bytes) : Except Failure SigningKey := do
  let key ← match algorithm with
    | .es256 => ofScalar random
    | .edDsa => ofSeed random
  return key.declare algorithm

/-- The key without its private half. -/
def publicHalf (key : SigningKey) : SigningKey :=
  { key with
    material := match key.material with
      | .p256 _ point => .p256 none point
      | .ed25519 _ encoding => .ed25519 none encoding }

/-! ### Asking keys -/

/-- The algorithm of the curve that the key lies on. -/
def algorithm (key : SigningKey) : SignatureAlgorithm :=
  match key.material with
  | .p256 _ _ => .es256
  | .ed25519 _ _ => .edDsa

/-- Whether the private half is there. -/
def isPrivate (key : SigningKey) : Bool :=
  match key.material with
  | .p256 scalar _ => scalar.isSome
  | .ed25519 seed _ => seed.isSome

/-- Whether the key lies on the algorithm's curve and declares no other algorithm. -/
def fits (key : SigningKey) (algorithm : SignatureAlgorithm) : Bool :=
  key.algorithm = algorithm && key.declared.all fun declared => declared = algorithm

/-- The encoding of the public half. -/
def publicBytes (key : SigningKey) : Bytes :=
  match key.material with
  | .p256 _ point => point.encode
  | .ed25519 _ encoding => encoding

/-! ### Using keys -/

/-- The signature of a message. -/
def sign (key : SigningKey) (message : Bytes) : Except Failure Bytes :=
  match key.material with
  | .p256 (some scalar) _ =>
    match Ecdsa.sign? scalar message with
    | some signature => .ok signature
    | none => .error .signing
  | .ed25519 (some seed) _ => .ok (EdDsa.sign seed message)
  | .p256 none _ => .error (.key .publicOnly)
  | .ed25519 none _ => .error (.key .publicOnly)

/-- Accepts a signature that belongs to a message. -/
def verify (key : SigningKey) (message signature : Bytes) : Except Failure Unit :=
  let genuine := match key.material with
    | .p256 _ point => Ecdsa.verify point message signature
    | .ed25519 _ encoding => EdDsa.verify encoding message signature
  if genuine then .ok () else .error .signature

/-- A secret preceded by zero bytes up to the size asked for. -/
def padSecret (size : Nat) (secret : Bytes) : Except Failure Bytes :=
  if secret.length ≤ size then .ok (Bytes.padLeft size secret)
  else .error (.agreement (.tooLong secret.length size))

/-- The secret that the private half of a key shares with the public half of another, preceded
by zero bytes up to the size asked for. -/
def agree (key peer : SigningKey) (size : Nat) : Except Failure Bytes :=
  match key.material, peer.material with
  | .p256 (some scalar) _, .p256 _ point => padSecret size (P256.agree scalar point)
  | .ed25519 (some seed) _, .ed25519 _ encoding => padSecret size (EdDsa.agree seed encoding)
  | .p256 none _, _ => .error (.agreement .publicOnly)
  | .ed25519 none _, _ => .error (.agreement .publicOnly)
  | _, _ => .error (.agreement .differentCurves)

end SigningKey

end Oscore
