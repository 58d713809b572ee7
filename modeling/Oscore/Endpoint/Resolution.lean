/-
This file registers contexts and finds the one that a message is for.

A lookup that misses is raised as an event. Handlers may supply a context,
which is then registered, and a member of it; if the member is still missing,
the supplied context is asked on its own channel.
-/

import Oscore.Endpoint.Contexts

namespace Oscore

/-- The answer to a lookup. -/
inductive Resolution
  /-- The context that holds the entity, and the entity. -/
  | resolved (context : ContextRef) (recipient : EntityRef)
  /-- Nothing was found; the peer is answered with this response code. -/
  | unresolved (status : UInt8)
  deriving DecidableEq, Repr

namespace Endpoint

variable {Handler Application : Type}

/-! ### Registration -/

/-- Registers a context after all others. -/
def register (ref : RegistryRef) (context : ContextRef) : Action Handler Application Unit :=
  modify fun endpoint =>
    let registry := endpoint.registry ref
    endpoint.setRegistry ref { registry with contexts := registry.contexts ++ [context] }

/-- Derives the context of a sender and one recipient, and registers it. -/
def deriveInto (ref : RegistryRef) (keying : Keying) (sender recipient : Bytes) :
    Action Handler Application (Except Refusal ContextRef) := do
  let derived ← derive ((← get).registry ref).counter keying sender recipient
  if let .ok context := derived then register ref context
  return derived

/-- Derives the context of a group, and registers it. -/
def deriveGroupInto (ref : RegistryRef) (parameters : GroupParameters) :
    Action Handler Application (Except Refusal ContextRef) := do
  let derived ← deriveGroup ((← get).registry ref).counter parameters
  if let .ok context := derived then register ref context
  return derived

/-- Removes every context of a number, and answers how many there were. -/
def deregister (ref : RegistryRef) (number : Nat) : Action Handler Application Nat :=
  fun endpoint =>
    let registry := endpoint.registry ref
    let kept := registry.contexts.filter fun context => (endpoint.context context).number ≠ number
    (registry.contexts.length - kept.length,
      endpoint.setRegistry ref { registry with contexts := kept })

/-! ### Lookup -/

/-- The first registered context of a number. -/
def findNumber (endpoint : Endpoint Handler Application) (ref : RegistryRef) (number : Nat) :
    Option ContextRef :=
  (endpoint.registry ref).contexts.find? fun context => (endpoint.context context).number = number

/-- The registered contexts of a group, or those without one, in the order of registration. -/
def byGroup (endpoint : Endpoint Handler Application) (ref : RegistryRef)
    (groupId : Option Bytes) : List ContextRef :=
  (endpoint.registry ref).contexts.filter fun context =>
    (endpoint.context context).groupId = groupId

/-- The recipient of an identifier in a context. -/
def recipientRef? (endpoint : Endpoint Handler Application) (context : ContextRef) (id : Bytes) :
    Option EntityRef :=
  ((endpoint.context context).recipient? id).map fun _ => ⟨context, .recipient id⟩

/-- The first of some contexts that holds a recipient, with the recipient. -/
def firstHolding (endpoint : Endpoint Handler Application) (contexts : List ContextRef)
    (id : Bytes) : Option (ContextRef × EntityRef) :=
  contexts.findSome? fun context =>
    (endpoint.recipientRef? context id).map fun recipient => (context, recipient)

/-- The answer when nothing was found. -/
def unresolved (status : Option UInt8) : Resolution := .unresolved (status.getD unauthorized)

/-- The event of a lookup that found none of the group's contexts to hold the entity. -/
def missEvent (groupId : Option Bytes) (keyId : Bytes) (candidates : List ContextRef) : Event where
  code := if candidates.isEmpty ∧ groupId.isSome then .unknownGroup else .unknownKey
  groupId
  keyId
  context := candidates.head?

/-- Finds the entity in a context that a handler supplied: the one the handler named, or one that
the context holds, or one that the context's own handlers name or add. -/
def resolveIn (behaviour : Behaviour Handler Application) (context : ContextRef) (event : Event)
    (keyId : Bytes) : Action Handler Application Resolution := do
  match event.recipient <|> (← get).recipientRef? context keyId with
  | some recipient => return .resolved context recipient
  | none =>
    let hosted := (← get).hosted context
    let answer ← raise behaviour hosted.channel
      { code := .unknownKey, groupId := hosted.context.groupId, keyId, context := some context }
    match answer.recipient <|> (← get).recipientRef? context keyId with
    | some recipient => return .resolved context recipient
    | none => return unresolved (answer.status <|> event.status)

/-- Finds the context and the entity that a message is from. -/
def resolve (behaviour : Behaviour Handler Application) (ref : RegistryRef)
    (groupId : Option Bytes) (keyId : Bytes) : Action Handler Application Resolution := do
  let endpoint ← get
  let candidates := endpoint.byGroup ref groupId
  match endpoint.firstHolding candidates keyId with
  | some (context, recipient) => return .resolved context recipient
  | none =>
    let event ← raise behaviour (endpoint.registry ref).channel
      (missEvent groupId keyId candidates)
    match event.context with
    | none => return unresolved event.status
    | some context =>
      if context ∉ candidates then register ref context
      resolveIn behaviour context event keyId

end Endpoint

end Oscore
