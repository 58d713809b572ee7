/-
This file names everything that can go wrong, by cause.

Failures belong to the cryptographic primitives, refusals to the operations on
security contexts. Each cause is a constructor with the values that explain
it, and the wording lives in the two `message` functions at the end.
-/

import Oscore.Bytes

namespace Oscore

/-! ### Failures of the primitives -/

/-- Why key material was not accepted. -/
inductive KeyFault
  /-- A symmetric key of the wrong length. -/
  | length (expected actual : Nat)
  /-- Not a P-256 private scalar. -/
  | scalar
  /-- Not a P-256 public point. -/
  | point
  /-- An Ed25519 seed of the wrong length. -/
  | seedLength
  /-- An Ed25519 public key of the wrong length. -/
  | encodingLength
  /-- No Ed25519 point has this encoding. -/
  | encoding
  /-- Signing was asked of a key without its private half. -/
  | publicOnly
  /-- The entity carries no signing key. -/
  | absent
  deriving DecidableEq, Repr

/-- Why two keys did not agree on a shared secret. -/
inductive AgreementFault
  /-- The local key has no private half. -/
  | publicOnly
  /-- The keys lie on different curves. -/
  | differentCurves
  /-- The shared secret does not fit the size asked for. -/
  | tooLong (length size : Nat)
  deriving DecidableEq, Repr

/-- A failure of a cryptographic primitive. -/
inductive Failure
  /-- The identifier names no supported AEAD or key derivation algorithm. -/
  | unknownAlgorithm (identifier : Int)
  /-- The identifier names no supported signature algorithm. -/
  | unsupportedSignature (identifier : Int)
  /-- More output was asked of the key derivation than it can give. -/
  | derivation
  /-- Key material was not accepted. -/
  | key (fault : KeyFault)
  /-- The nonce does not have the length the AEAD algorithm takes. -/
  | nonceLength (expected actual : Nat)
  /-- Encryption failed. -/
  | encryption
  /-- Decryption failed. -/
  | decryption
  /-- No signature could be made. -/
  | signing
  /-- The signature does not belong to the message. -/
  | signature
  /-- Two keys did not agree on a shared secret. -/
  | agreement (fault : AgreementFault)
  deriving DecidableEq, Repr

/-! ### Refusals of the operations -/

/-- What is wrong with a map of input parameters. -/
inductive ParameterFault
  /-- The bytes are no data item. -/
  | undecodable
  /-- The item is not a map. -/
  | notMap
  /-- A required entry is missing. -/
  | missing (name : String)
  /-- An entry should be a byte string. -/
  | notBytes (name : String)
  /-- An entry should be an integer of 64 bits. -/
  | notInteger (name : String)
  deriving DecidableEq, Repr

/-- Why an operation on a security context was refused. -/
inductive Refusal
  /-- A primitive failed. -/
  | failure (cause : Failure)
  /-- A member's signing key is for another algorithm than the group's. -/
  | wrongAlgorithm
  /-- A replacement sender key does not fit the context's signature algorithm. -/
  | algorithmMismatch
  /-- The lists of member identifiers and member keys differ in length. -/
  | memberLists (identifiers keys : Nat)
  /-- An identifier is too long to be folded into the IV. -/
  | identifierTooLong (length limit : Nat)
  /-- The context has no recipient of this identifier. -/
  | unknownRecipient (identifier : Bytes)
  /-- The context already has a recipient of this identifier. -/
  | duplicateRecipient (identifier : Bytes)
  /-- The identifier belongs to the sender or to a recipient already. -/
  | senderInUse (identifier : Bytes)
  /-- The sender has used all its sequence numbers. -/
  | sequenceExhausted (maximum : Nat)
  /-- A bound lies outside its permitted range. -/
  | bound (value ceiling : Nat)
  /-- A partial IV of a length that the protocol does not allow. -/
  | partialIvLength (length : Nat)
  /-- The sequence number was accepted before, or may have been. -/
  | replay (sequence : Nat)
  /-- The map of input parameters is malformed. -/
  | parameters (fault : ParameterFault)
  deriving DecidableEq, Repr

/-! ### Wording -/

/-- The wording of a key fault. -/
def KeyFault.message : KeyFault → String
  | length expected actual => s!"expected {expected} byte key, got {actual}"
  | scalar => "invalid P-256 scalar"
  | point => "invalid P-256 point"
  | seedLength => "Ed25519 seed must be 32 bytes"
  | encodingLength => "Ed25519 key must be 32 bytes"
  | encoding => "invalid Ed25519 point"
  | publicOnly => "private key required for signing"
  | absent => "entity has no signing key"

/-- The wording of an agreement fault. -/
def AgreementFault.message : AgreementFault → String
  | publicOnly => "private key required"
  | differentCurves => "keys use different curves"
  | tooLong length size => s!"shared secret of {length} bytes exceeds {size}"

/-- The wording of a failure. -/
def Failure.message : Failure → String
  | unknownAlgorithm identifier => s!"unknown algorithm: {identifier}"
  | unsupportedSignature identifier => s!"unsupported signature algorithm: {identifier}"
  | derivation => "key derivation failed"
  | key fault => "invalid key: " ++ fault.message
  | nonceLength expected actual => s!"invalid nonce length: expected {expected}, got {actual}"
  | encryption => "AEAD encryption failed"
  | decryption => "AEAD decryption failed (invalid tag or corrupted)"
  | signing => "signing failed"
  | signature => "signature verification failed"
  | agreement fault => "key agreement failed: " ++ fault.message

/-- The wording of a parameter fault. -/
def ParameterFault.message : ParameterFault → String
  | undecodable => "<cbor>"
  | notMap => "parameters must be a map"
  | missing name => "missing " ++ name
  | notBytes name => name ++ " must be a byte string"
  | notInteger name => name ++ " must be an integer"

/-- The wording of a refusal. -/
def Refusal.message : Refusal → String
  | failure cause => "crypto error: " ++ cause.message
  | wrongAlgorithm => "wrong algorithm for signing key"
  | algorithmMismatch => "signature algorithm mismatch"
  | memberLists identifiers keys =>
    s!"recipient ids ({identifiers}) and signing keys ({keys}) do not match"
  | identifierTooLong length limit =>
    s!"entity id of {length} bytes exceeds the {limit} bytes available in the IV"
  | unknownRecipient identifier => "unknown recipient " ++ identifier.listing
  | duplicateRecipient identifier => "duplicate recipient " ++ identifier.listing
  | senderInUse identifier => "sender id " ++ identifier.listing ++ " already in use"
  | sequenceExhausted maximum => s!"sequence number exhausted (max {maximum})"
  | bound value ceiling => s!"value {value} outside permitted range (ceiling {ceiling})"
  | partialIvLength length => s!"invalid partial IV of {length} bytes"
  | replay sequence => s!"replay detected for sequence number {sequence}"
  | parameters fault => "invalid context parameters: " ++ fault.message

/-- Whether a refusal says that an AEAD or key derivation identifier is not known. -/
def Refusal.isUnknownAlgorithm : Refusal → Bool
  | failure (.unknownAlgorithm _) => true
  | _ => false

/-- Whether a refusal says that a signature algorithm is not supported. -/
def Refusal.isUnsupportedSignature : Refusal → Bool
  | failure (.unsupportedSignature _) => true
  | _ => false

end Oscore
