/-
This file lists the algorithms a security context may use and the integers
that stand for them in messages.

Identifiers travel as integers and are resolved where they are used, so that an
unknown one is refused at that point and nowhere earlier.
-/

import Oscore.Cbor.Item
import Oscore.Limits

namespace Oscore

/-! ### Authenticated encryption -/

/-- The algorithms that protect messages. -/
inductive AeadAlgorithm
  /-- AES-CCM with a 128-bit key and a tag of eight bytes. -/
  | aesCcm8
  /-- AES-CCM with a 128-bit key and a tag of sixteen bytes. -/
  | aesCcm16
  /-- AES-GCM with a 128-bit key. -/
  | aesGcm128
  /-- AES-GCM with a 256-bit key. -/
  | aesGcm256
  /-- ChaCha20 with Poly1305. -/
  | chaCha20Poly1305
  deriving DecidableEq, Repr, Inhabited

namespace AeadAlgorithm

/-- The algorithm that an application gets when it asks for none. -/
def standard : AeadAlgorithm := aesCcm8

/-- The integer that stands for an algorithm. -/
def identifier : AeadAlgorithm → Int
  | aesCcm8 => 10
  | aesCcm16 => 30
  | aesGcm128 => 1
  | aesGcm256 => 3
  | chaCha20Poly1305 => 24

/-- The algorithm that an integer stands for. -/
def ofIdentifier (identifier : Int) : Except Failure AeadAlgorithm :=
  if identifier = 10 then .ok aesCcm8
  else if identifier = 30 then .ok aesCcm16
  else if identifier = 1 then .ok aesGcm128
  else if identifier = 3 then .ok aesGcm256
  else if identifier = 24 then .ok chaCha20Poly1305
  else .error (.unknownAlgorithm identifier)

/-- The length of a key. -/
def keyLength : AeadAlgorithm → Nat
  | aesCcm8 | aesCcm16 | aesGcm128 => 16
  | aesGcm256 | chaCha20Poly1305 => 32

/-- The length of a nonce. -/
def nonceLength : AeadAlgorithm → Nat
  | aesCcm8 | aesCcm16 => 13
  | aesGcm128 | aesGcm256 | chaCha20Poly1305 => 12

/-- The length of the tag that ends a ciphertext. -/
def tagLength : AeadAlgorithm → Nat
  | aesCcm8 => 8
  | aesCcm16 | aesGcm128 | aesGcm256 | chaCha20Poly1305 => 16

/-- The longest identifier that fits the nonce beside the partial IV. -/
def identifierCapacity (algorithm : AeadAlgorithm) : Nat :=
  algorithm.nonceLength - identifierOverhead

end AeadAlgorithm

/-! ### Key derivation -/

/-- The hash functions that derive keys. -/
inductive KdfAlgorithm
  | sha256
  | sha512
  deriving DecidableEq, Repr, Inhabited

namespace KdfAlgorithm

/-- The derivation that an application gets when it asks for none. -/
def standard : KdfAlgorithm := sha256

/-- The integer that stands for a key derivation. -/
def identifier : KdfAlgorithm → Int
  | sha256 => -10
  | sha512 => -11

/-- The key derivation that an optional integer stands for. The two identifiers of key
agreement with a derivation step stand for the step alone, and no identifier for SHA-256. -/
def ofIdentifier : Option Int → Except Failure KdfAlgorithm
  | none => .ok standard
  | some identifier =>
    if identifier = -10 ∨ identifier = -27 then .ok sha256
    else if identifier = -11 ∨ identifier = -28 then .ok sha512
    else .error (.unknownAlgorithm identifier)

end KdfAlgorithm

/-! ### Countersignatures -/

/-- The algorithms that countersign messages of a group. -/
inductive SignatureAlgorithm
  /-- ECDSA with SHA-256 on P-256. -/
  | es256
  /-- EdDSA on Ed25519. -/
  | edDsa
  deriving DecidableEq, Repr, Inhabited

/-- What the parties of a group announce about their countersignatures. -/
structure Capabilities where
  /-- The capabilities of the algorithm. -/
  algorithm : Cbor.Item
  /-- The capabilities of the keys. -/
  key : Cbor.Item
  deriving Inhabited, Repr

namespace SignatureAlgorithm

/-- The integer that stands for a signature algorithm. -/
def identifier : SignatureAlgorithm → Int
  | es256 => -7
  | edDsa => -8

/-- The signature algorithm that an integer stands for. -/
def ofIdentifier (identifier : Int) : Except Failure SignatureAlgorithm :=
  if identifier = -7 then .ok es256
  else if identifier = -8 then .ok edDsa
  else .error (.unsupportedSignature identifier)

/-- The length of a signature. -/
def signatureLength (_ : SignatureAlgorithm) : Nat := 64

/-- The numbers of the key type and of the curve. -/
def keyTypeAndCurve : SignatureAlgorithm → Int × Int
  | es256 => (2, 1)
  | edDsa => (1, 6)

/-- The capabilities of an algorithm when none are given: `[[type], [type, curve]]` for the
algorithm and `[type, curve]` for the key. -/
def capabilities (algorithm : SignatureAlgorithm) : Capabilities :=
  let (keyType, curve) := algorithm.keyTypeAndCurve
  let key := Cbor.Item.array [.integer keyType, .integer curve]
  { algorithm := .array [.array [.integer keyType], key], key }

end SignatureAlgorithm

end Oscore
