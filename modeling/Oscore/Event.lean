/-
This file defines events and the channels that carry them.

An event is a value. It goes through the handlers of a channel in the order of
their registration; each may change it and hands it to the next. A channel
gives every handler a number of its own, never twice the same.
-/

import Oscore.SecurityContext

namespace Oscore

/-! ### References -/

/-- Stands for a context of an endpoint. Two references are equal when they stand for the same
instance. -/
structure ContextRef where
  index : Nat
  deriving DecidableEq, Repr, Inhabited

/-- Stands for a channel of an endpoint. -/
structure ChannelRef where
  index : Nat
  deriving DecidableEq, Repr, Inhabited

/-- Stands for a source of context numbers of an endpoint. -/
structure CounterRef where
  index : Nat
  deriving DecidableEq, Repr, Inhabited

/-- Stands for a registry of an endpoint. -/
structure RegistryRef where
  index : Nat
  deriving DecidableEq, Repr, Inhabited

/-- Stands for an entity of a context, also after the context has replaced it. -/
structure EntityRef where
  context : ContextRef
  place : Place
  deriving DecidableEq, Repr

/-! ### Events -/

/-- What an event is about. -/
inductive EventCode
  /-- No context is known for a group identifier. -/
  | unknownGroup
  /-- No entity is known for a key identifier. -/
  | unknownKey
  /-- No public key is known for a member. -/
  | unknownPublicKey
  /-- The sender's sequence numbers are used up. -/
  | exhaustion
  /-- A replay window moved. -/
  | windowMoved
  /-- The sender's sequence number should be persisted. -/
  | persist
  deriving DecidableEq, Repr

namespace EventCode

/-- The number of an event code. -/
def number : EventCode → Nat
  | unknownGroup => 1
  | unknownKey => 2
  | unknownPublicKey => 3
  | exhaustion => 4
  | windowMoved => 5
  | persist => 6

/-- All event codes, in the order of their numbers. -/
def all : List EventCode :=
  [unknownGroup, unknownKey, unknownPublicKey, exhaustion, windowMoved, persist]

end EventCode

/-- Something that happened, or that a handler answered. -/
structure Event where
  /-- What the event is about. -/
  code : EventCode
  /-- The identifier of the group. -/
  groupId : Option Bytes := none
  /-- The identifier of the entity. -/
  keyId : Option Bytes := none
  /-- The sequence number. -/
  sequence : Option Nat := none
  /-- The context that the event is about, or that a handler supplied. -/
  context : Option ContextRef := none
  /-- The entity that the event is about, or that a handler supplied. -/
  recipient : Option EntityRef := none
  /-- The response code that a handler wants to be answered with. -/
  status : Option UInt8 := none
  deriving DecidableEq, Repr

/-- The event of a notice that a context gives. -/
def Notice.event (groupId : Option Bytes) (context : ContextRef) : Notice → Event
  | .persist sender sequence => { code := .persist, groupId, keyId := sender, sequence }
  | .exhausted sender sequence => { code := .exhaustion, groupId, keyId := sender, sequence }
  | .windowMoved recipient sequence =>
    { code := .windowMoved, groupId, keyId := recipient, sequence
      recipient := some ⟨context, .recipient recipient⟩ }

/-! ### Channels -/

/-- The handlers registered with a channel, each with its number. -/
structure Channel (Handler : Type) where
  /-- The handlers in the order of their registration. -/
  handlers : List (Nat × Handler) := []
  /-- How many numbers were given out. A counter of 64 bits gives the same ones until it has given
  out `2 ^ 64` of them. -/
  issued : Nat := 0
  deriving Inhabited

namespace Channel

variable {Handler : Type}

/-- Registers a handler after all others and gives it the next number. -/
def subscribe (channel : Channel Handler) (handler : Handler) : Nat × Channel Handler :=
  (channel.issued,
    { handlers := channel.handlers ++ [(channel.issued, handler)], issued := channel.issued + 1 })

/-- Removes the handler of a number. The answer says whether there was one. -/
def unsubscribe (channel : Channel Handler) (number : Nat) : Bool × Channel Handler :=
  let kept := channel.handlers.filter fun entry => entry.1 ≠ number
  (kept.length ≠ channel.handlers.length, { channel with handlers := kept })

end Channel

end Oscore
