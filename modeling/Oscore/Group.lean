/-
This file derives the contexts of groups and what members do in them.

Every member has a signing key that fits the group's signature algorithm. The
same keys let two members derive a context of their own, salted with the secret
that they agree on.
-/

import Oscore.SecurityContext

namespace Oscore

/-! ### Deriving a group -/

/-- What the context of a group is derived from. -/
structure GroupParameters where
  /-- What the entities are derived from. -/
  keying : Keying
  /-- The identifier of the local member. -/
  sender : Bytes
  /-- The identifier of the signature algorithm. -/
  algorithm : Int
  /-- The signing key of the local member. -/
  key : SigningKey
  /-- The capabilities of the algorithm, unless they are its usual ones. -/
  algorithmCapabilities : Option Cbor.Item := none
  /-- The capabilities of the keys, unless they are the algorithm's usual ones. -/
  keyCapabilities : Option Cbor.Item := none
  /-- The identifiers of the other members. -/
  identifiers : Option (List Bytes) := none
  /-- The signing keys of the other members, in the same order. -/
  keys : Option (List SigningKey) := none
  deriving Repr

/-- The first element of a list that stands in it, or among those seen before, already. -/
def firstRepeated {Element : Type} [DecidableEq Element] (seen : List Element) :
    List Element → Option Element
  | [] => none
  | element :: rest =>
    if element ∈ seen then some element else firstRepeated (element :: seen) rest

namespace GroupParameters

/-- The other members with their keys. Both lists must be missing, or be as long as each other. -/
def members (parameters : GroupParameters) : Except Refusal (List (Bytes × SigningKey)) :=
  let mismatch := Refusal.memberLists ((parameters.identifiers.map List.length).getD 0)
    ((parameters.keys.map List.length).getD 0)
  match parameters.identifiers, parameters.keys with
  | none, none => .ok []
  | some identifiers, some keys =>
    if identifiers.length = keys.length then .ok (identifiers.zip keys) else .error mismatch
  | _, _ => .error mismatch

/-- The capabilities that the members announce. -/
def capabilities (parameters : GroupParameters) (algorithm : SignatureAlgorithm) :
    Capabilities where
  algorithm := parameters.algorithmCapabilities.getD algorithm.capabilities.algorithm
  key := parameters.keyCapabilities.getD algorithm.capabilities.key

end GroupParameters

/-- Derives a member whose signing key must fit the algorithm of the group. -/
def ResolvedKeying.member (keying : ResolvedKeying) (algorithm : SignatureAlgorithm) (id : Bytes)
    (key : SigningKey) : Except Refusal Entity := do
  if !key.fits algorithm then throw .wrongAlgorithm
  let entity ← keying.entity id .recipient
  return { entity with signingKey := some key }

namespace SecurityContext

/-- Derives the entities of a group. Only the number is then missing for its context. -/
def prepareGroup (parameters : GroupParameters) : Except Refusal (Nat → SecurityContext) := do
  let members ← parameters.members
  if let some id := firstRepeated [] (members.map Prod.fst) then throw (.duplicateRecipient id)
  let algorithm ← (SignatureAlgorithm.ofIdentifier parameters.algorithm).mapError .failure
  if !parameters.key.fits algorithm then throw .wrongAlgorithm
  let resolved ← parameters.keying.resolve
  let sender ← resolved.entity parameters.sender .sender
  let recipients ← members.mapM fun (id, key) => resolved.member algorithm id key
  return fun number => {
    number, recipients
    keying := parameters.keying
    algorithm := resolved.aead
    countersigning := some { algorithm, capabilities := parameters.capabilities algorithm }
    sender := { sender with signingKey := some parameters.key }
    formerSenders := [] }

/-- Derives the context of a group. -/
def deriveGroup (parameters : GroupParameters) (number : Nat) :
    Except Refusal SecurityContext := do
  return (← prepareGroup parameters) number

/-- Adds a member. A context without countersignatures has none that a key could fit. -/
def addRecipient (context : SecurityContext) (id : Bytes) (key : SigningKey) :
    Except Refusal SecurityContext := do
  match context.signatureAlgorithm with
  | none => throw .wrongAlgorithm
  | some algorithm =>
    if !key.fits algorithm then throw .wrongAlgorithm
    if (context.recipient? id).isSome then throw (.duplicateRecipient id)
    let resolved ← context.keying.resolve
    let entity ← resolved.member algorithm id key
    return { context with recipients := context.recipients ++ [entity] }

/-! ### Pairs -/

/-- The keying of a pairwise context: the local group key is the secret, and the agreed secret
the salt. -/
def pairKeying (context : SecurityContext) (shared : Bytes) : Keying where
  secret := context.sender.key
  salt := shared
  idContext := context.groupId
  aead := context.algorithm.identifier
  kdf := some KdfAlgorithm.sha256.identifier
  limits := context.keying.limits

/-- Derives one side of a pairwise context from its group key. -/
def pairEntity (context : SecurityContext) (shared : Bytes) (entity : Entity) (role : Role) :
    Except Refusal Entity :=
  ResolvedKeying.entity
    { secret := entity.key, salt := shared, idContext := context.groupId
      aead := context.algorithm, kdf := .sha256, limits := context.keying.limits } entity.id role

/-- Derives the two entities of the sender and one member. Only the number is then missing for
their context. -/
def preparePair (context : SecurityContext) (id : Bytes) :
    Except Refusal (Nat → SecurityContext) := do
  let recipient ← context.recipient id
  match context.sender.signingKey, recipient.signingKey with
  | some localKey, some memberKey =>
    let shared ← (localKey.agree memberKey pairwiseSecretLength).mapError .failure
    let sender ← context.pairEntity shared context.sender .sender
    let recipient ← context.pairEntity shared recipient .recipient
    return fun number => {
      number, sender
      keying := context.pairKeying shared
      algorithm := context.algorithm
      countersigning := none
      formerSenders := []
      recipients := [recipient] }
  | _, _ => throw (.failure (.key .absent))

/-- Derives the context between the sender and one member. The member's own derivation gives the
same entities with their sides exchanged. -/
def derivePair (context : SecurityContext) (id : Bytes) (number : Nat) :
    Except Refusal SecurityContext := do
  return (← context.preparePair id) number

/-! ### Countersignatures -/

/-- The signing key of an entity, which must have one. -/
def signingKeyOf (entity : Entity) : Except Refusal SigningKey :=
  match entity.signingKey with
  | some key => .ok key
  | none => .error (.failure (.key .absent))

/-- Countersigns a message with the sender's key. -/
def countersign (context : SecurityContext) (message : Bytes) : Except Refusal Bytes := do
  let key ← signingKeyOf context.sender
  (key.sign message).mapError .failure

/-- Accepts a countersignature of a member. -/
def verifyCountersignature (context : SecurityContext) (id message signature : Bytes) :
    Except Refusal Unit := do
  let key ← signingKeyOf (← context.recipient id)
  (key.verify message signature).mapError .failure

end SecurityContext

end Oscore
