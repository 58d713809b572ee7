/-
This file defines security contexts as values, and what can be done with one.

A context owns its sender, the senders it had before, and its recipients. An
operation answers, leaves a context behind, and may give notices for the
context's handlers; what handlers do with them is not this file's concern.
-/

import Oscore.Aead
import Oscore.Derivation

namespace Oscore

/-! ### Contexts -/

/-- What the members of a group countersign with. -/
structure Countersigning where
  algorithm : SignatureAlgorithm
  capabilities : Capabilities
  deriving Repr

/-- A sender, its recipients, and what they were derived from. -/
structure SecurityContext where
  /-- The number given to the context when it was derived. -/
  number : Nat
  /-- What the entities were derived from. -/
  keying : Keying
  /-- The algorithm that protects messages. -/
  algorithm : AeadAlgorithm
  /-- How members countersign, for the context of a group. -/
  countersigning : Option Countersigning
  /-- The entity that protects outgoing messages. -/
  sender : Entity
  /-- The senders that were replaced, oldest first. -/
  formerSenders : List Entity
  /-- The entities whose messages are accepted, with distinct identifiers. -/
  recipients : List Entity
  deriving Repr, Inhabited

/-- Where in a context an entity stands. -/
inductive Place
  /-- The sender that replaced so many senders. -/
  | sender (generation : Nat)
  /-- The recipient of this identifier. -/
  | recipient (id : Bytes)
  deriving DecidableEq, Repr

/-- Something that the handlers of a context are told. -/
inductive Notice
  /-- This sequence number should be persisted before a message uses it. -/
  | persist (sender : Bytes) (sequence : Nat)
  /-- The sender is exhausted at this sequence number. -/
  | exhausted (sender : Bytes) (sequence : Nat)
  /-- Accepting this sequence number moved the window of a recipient. -/
  | windowMoved (recipient : Bytes) (sequence : Nat)
  deriving DecidableEq, Repr

/-- What an operation on a context leaves behind. -/
structure Outcome (Answer : Type) where
  answer : Except Refusal Answer
  context : SecurityContext
  notices : List Notice

namespace SecurityContext

/-! ### Entities -/

/-- The identifier of the group, if there is one. -/
def groupId (context : SecurityContext) : Option Bytes := context.keying.idContext

/-- The signature algorithm of the group, if there is one. -/
def signatureAlgorithm (context : SecurityContext) : Option SignatureAlgorithm :=
  context.countersigning.map Countersigning.algorithm

/-- The recipient of an identifier. -/
def recipient? (context : SecurityContext) (id : Bytes) : Option Entity :=
  context.recipients.find? fun entity => entity.id = id

/-- The recipient of an identifier, which must be there. -/
def recipient (context : SecurityContext) (id : Bytes) : Except Refusal Entity :=
  match context.recipient? id with
  | some entity => .ok entity
  | none => .error (.unknownRecipient id)

/-- The context with a recipient put in the place of the one of the same identifier. -/
def setRecipient (context : SecurityContext) (entity : Entity) : SecurityContext :=
  { context with
    recipients := context.recipients.map fun other =>
      if other.id = entity.id then entity else other }

/-- Where the sender stands. -/
def senderPlace (context : SecurityContext) : Place := .sender context.formerSenders.length

/-- The entity at a place. -/
def entity? (context : SecurityContext) : Place → Option Entity
  | .sender generation => (context.formerSenders ++ [context.sender])[generation]?
  | .recipient id => context.recipient? id

/-- The context with another entity of the same identifier at a place. -/
def setEntity (context : SecurityContext) (place : Place) (entity : Entity) : SecurityContext :=
  match place with
  | .sender generation =>
    if generation = context.formerSenders.length then { context with sender := entity }
    else { context with formerSenders := context.formerSenders.set generation entity }
  | .recipient _ => context.setRecipient entity

/-! ### Deriving contexts -/

/-- Derives a sender and one recipient. Only the number is then missing for their context. -/
def prepare (keying : Keying) (sender recipient : Bytes) :
    Except Refusal (Nat → SecurityContext) := do
  let resolved ← keying.resolve
  let sender ← resolved.entity sender .sender
  let recipient ← resolved.entity recipient .recipient
  return fun number => {
    number, keying, sender
    algorithm := resolved.aead
    countersigning := none
    formerSenders := []
    recipients := [recipient] }

/-- A context of a sender and one recipient. The peer derives its own by exchanging the two
identifiers. -/
def derive (keying : Keying) (sender recipient : Bytes) (number : Nat) :
    Except Refusal SecurityContext := do
  return (← prepare keying sender recipient) number

/-- A copy with the same number and keys, in whose windows nothing was accepted. -/
def duplicate (context : SecurityContext) : SecurityContext :=
  { context with
    sender := context.sender.duplicate
    formerSenders := []
    recipients := context.recipients.map Entity.duplicate }

/-- Derives the sender anew under another identifier. The signing key must fit the signature
algorithm of the group, and the identifier must be neither the sender's nor a recipient's. -/
def replaceSender (context : SecurityContext) (id : Bytes) (key : SigningKey) :
    Except Refusal SecurityContext := do
  match context.signatureAlgorithm with
  | some algorithm => if !key.fits algorithm then throw .algorithmMismatch
  | none => throw .algorithmMismatch
  if context.sender.id = id ∨ (context.recipient? id).isSome then throw (.senderInUse id)
  let entity ← context.keying.entity id .sender
  return { context with
    sender := { entity with signingKey := some key }
    formerSenders := context.formerSenders ++ [context.sender] }

/-! ### Nonces -/

/-- A nonce taken for one outgoing message. -/
structure ReservedNonce where
  /-- The identifier of the sender. -/
  sender : Bytes
  /-- The sequence number that the nonce was made from. -/
  sequence : Nat
  /-- The partial IV that the message carries. -/
  partialIv : Bytes
  /-- The nonce itself. -/
  nonce : Bytes
  deriving DecidableEq, Repr

/-- Takes the next nonce of the sender. Handlers are told when the next sequence number should
be persisted and when there is none left. -/
def reserve (context : SecurityContext) : Outcome ReservedNonce :=
  let sender := context.sender
  match sender.nonce sender.partialIv with
  | .error refusal => ⟨.error refusal, context, []⟩
  | .ok nonce =>
    match sender.advance with
    | .error refusal => ⟨.error refusal, context, [.exhausted sender.id sender.sequence]⟩
    | .ok (persist, next) =>
      { answer := .ok {
          sender := sender.id, sequence := sender.sequence, partialIv := sender.partialIv, nonce }
        context := { context with sender := next }
        notices := if persist then [.persist sender.id next.sequence] else [] }

/-- The nonce of a message from a recipient. -/
def recipientNonce (context : SecurityContext) (id partialIv : Bytes) : Except Refusal Bytes := do
  (← context.recipient id).nonce partialIv

/-! ### Accepted numbers -/

/-- Whether a sequence number from a recipient must be refused. -/
def isReplay (context : SecurityContext) (id : Bytes) (sequence : Nat) : Except Refusal Bool := do
  return (← context.recipient id).isReplay sequence

/-- Accepts a sequence number from a recipient that is there. Handlers are told when its window
moved. -/
def acceptFrom (context : SecurityContext) (entity : Entity) (sequence : Nat) : Outcome Unit :=
  match entity.accept sequence with
  | .error refusal => ⟨.error refusal, context, []⟩
  | .ok (moved, next) =>
    { answer := .ok ()
      context := context.setRecipient next
      notices := if moved then [.windowMoved entity.id sequence] else [] }

/-- Accepts a sequence number from a recipient. -/
def record (context : SecurityContext) (id : Bytes) (sequence : Nat) : Outcome Unit :=
  match context.recipient id with
  | .error refusal => ⟨.error refusal, context, []⟩
  | .ok entity => context.acceptFrom entity sequence

/-! ### Messages -/

/-- A protected message. -/
structure ProtectedMessage where
  /-- The identifier of the sender. -/
  sender : Bytes
  /-- The partial IV that the nonce was made from. -/
  partialIv : Bytes
  /-- The ciphertext with the tag appended. -/
  ciphertext : Bytes
  deriving DecidableEq, Repr

/-- Encrypts a message under a nonce taken before, with the key that the sender has now. -/
def encryptReserved (context : SecurityContext) (reserved : ReservedNonce)
    (associated plaintext : Bytes) : Except Refusal ProtectedMessage := do
  let ciphertext ← (context.algorithm.encrypt context.sender.key reserved.nonce associated
    plaintext).mapError .failure
  return { sender := reserved.sender, partialIv := reserved.partialIv, ciphertext }

/-- Encrypts a message under the next nonce of the sender. A message that cannot be encrypted
uses up its nonce. -/
def protect (context : SecurityContext) (associated plaintext : Bytes) :
    Outcome ProtectedMessage :=
  let reservation := context.reserve
  { reservation with
    answer := do
      reservation.context.encryptReserved (← reservation.answer) associated plaintext }

/-- Decrypts a message from a recipient that is there, and accepts its sequence number. -/
def unprotectFrom (context : SecurityContext) (entity : Entity) (sequence : Nat)
    (partialIv associated ciphertext : Bytes) : Outcome Bytes :=
  let opened : Except Refusal Bytes := do
    if entity.isReplay sequence then throw (.replay sequence)
    let nonce ← entity.nonce partialIv
    (context.algorithm.decrypt entity.key nonce associated ciphertext).mapError .failure
  match opened with
  | .error refusal => ⟨.error refusal, context, []⟩
  | .ok plaintext =>
    let acceptance := context.acceptFrom entity sequence
    { acceptance with answer := acceptance.answer.map fun _ => plaintext }

/-- Decrypts a message. Its sequence number is checked before and accepted after, so that a
message that is not genuine changes nothing. -/
def unprotect (context : SecurityContext) (id partialIv associated ciphertext : Bytes) :
    Outcome Bytes :=
  let found : Except Refusal (Nat × Entity) := do
    let sequence ← PartialIv.decode partialIv
    return (sequence, ← context.recipient id)
  match found with
  | .error refusal => ⟨.error refusal, context, []⟩
  | .ok (sequence, entity) =>
    context.unprotectFrom entity sequence partialIv associated ciphertext

end SecurityContext

end Oscore
