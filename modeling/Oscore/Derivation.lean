/-
This file derives entities.

The key of an entity is derived for its identifier, the IV for the empty
identifier, so that all entities of a context share one IV. The identifier is
then folded into it: its length into the first byte, and the identifier itself
into the bytes before the last five, which stay free for the partial IV.
-/

import Oscore.Entity
import Oscore.Keying

namespace Oscore

/-- What a derived value is for. -/
inductive Purpose
  | key
  | iv
  deriving DecidableEq, Repr

/-- The word that stands for a purpose. -/
def Purpose.label : Purpose → String
  | key => "Key"
  | iv => "IV"

/-- The purpose of a derivation in bytes: an array of the identifier, the identifier of the
group or null, the algorithm, the label and the length. -/
def derivationInfo (id : Bytes) (idContext : Option Bytes) (aead : AeadAlgorithm)
    (purpose : Purpose) (length : Nat) : Bytes :=
  let group := match idContext with
    | some group => Cbor.Item.bytes group
    | none => .null
  (Cbor.Item.array
    [.bytes id, group, .integer aead.identifier, .text purpose.label, .integer length]).encode

/-- Whether an entity sends or is listened to. -/
inductive Role
  | sender
  | recipient
  deriving DecidableEq, Repr

/-- The IV of an entity: the common IV with the identifier folded in. -/
def foldIdentifier (common id : Bytes) : Bytes :=
  Bytes.xorAt (common.length - partialIvReserved - id.length) id
    (Bytes.xorAt 0 [UInt8.ofNat id.length] common)

namespace ResolvedKeying

/-- Derives some bytes for an identifier and a purpose. -/
def derive (keying : ResolvedKeying) (id : Bytes) (purpose : Purpose) (length : Nat) :
    Except Refusal Bytes :=
  (keying.kdf.hash.derive keying.secret keying.salt
    (derivationInfo id keying.idContext keying.aead purpose length) length).mapError .failure

/-- The window that an entity of this role starts with. -/
def window (keying : ResolvedKeying) : Role → Except Refusal (Option ReplayWindow)
  | .sender => .ok none
  | .recipient => (ReplayWindow.create 0 keying.limits.window).map some

/-- Derives an entity. Its identifier must leave six bytes of the nonce free. -/
def entity (keying : ResolvedKeying) (id : Bytes) (role : Role) : Except Refusal Entity := do
  let capacity := keying.aead.identifierCapacity
  if capacity < id.length then throw (.identifierTooLong id.length capacity)
  let key ← keying.derive id .key keying.aead.keyLength
  let common ← keying.derive [] .iv keying.aead.nonceLength
  let window ← keying.window role
  return {
    id, key, window
    baseIv := foldIdentifier common id
    sequence := 0
    maximum := keying.limits.maximum
    interval := keying.limits.interval
    signingKey := none }

end ResolvedKeying

/-- Derives an entity from keying. -/
def Keying.entity (keying : Keying) (id : Bytes) (role : Role) : Except Refusal Entity := do
  (← keying.resolve).entity id role

end Oscore
