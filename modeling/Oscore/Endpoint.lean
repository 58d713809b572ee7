/-
This file defines the state of an endpoint and how it raises events.

An endpoint hosts contexts, channels, registries and sources of context
numbers, and refers to them by their place. Handlers belong to the
application: they may do anything to the endpoint that the application may do,
and to the application's own state. What they do is given by a `Behaviour`,
which every operation that raises events takes as an argument.
-/

import Oscore.Blockwise
import Oscore.Event

namespace Oscore

/-! ### State -/

/-- A context of an endpoint, with what belongs to this instance alone. -/
structure Hosted where
  context : SecurityContext
  /-- The channel on which the context raises events. -/
  channel : ChannelRef
  /-- The blockwise transfers in progress. -/
  transfers : Blockwise.Store := {}
  /-- The context that supersedes this one. -/
  successor : Option ContextRef := none
  deriving Inhabited

/-- The contexts that an endpoint finds by their identifiers. -/
structure Registry where
  /-- The registered contexts, in the order of their registration. -/
  contexts : List ContextRef := []
  /-- The source of numbers for contexts derived into the registry. -/
  counter : CounterRef
  /-- The channel on which lookups that miss are raised. -/
  channel : ChannelRef
  deriving Inhabited

/-- The state of an endpoint and of the application above it. -/
structure Endpoint (Handler Application : Type) where
  /-- The sources of context numbers: the last number each gave out. Numbers are not bounded here;
  a counter of 64 bits gives the same ones until it has given out `2 ^ 64` of them. -/
  counters : List Nat := []
  channels : List (Channel Handler) := []
  contexts : List Hosted := []
  registries : List Registry := []
  application : Application

/-- An operation on an endpoint. -/
abbrev Action (Handler Application Answer : Type) := StateM (Endpoint Handler Application) Answer

/-- What handlers do: each takes an event, may act on the endpoint, and returns the event. -/
abbrev Behaviour (Handler Application : Type) := Handler → Event → Action Handler Application Event

namespace Endpoint

variable {Handler Application : Type}

/-! ### Reading

A reference that the endpoint never gave out reads as an object without content. -/

/-- The last number that a source gave out. -/
def counter (endpoint : Endpoint Handler Application) (ref : CounterRef) : Nat :=
  endpoint.counters.getD ref.index 0

/-- A channel. -/
def channel (endpoint : Endpoint Handler Application) (ref : ChannelRef) : Channel Handler :=
  endpoint.channels.getD ref.index {}

/-- A context with what belongs to it. -/
def hosted (endpoint : Endpoint Handler Application) (ref : ContextRef) : Hosted :=
  endpoint.contexts.getD ref.index default

/-- A context. -/
def context (endpoint : Endpoint Handler Application) (ref : ContextRef) : SecurityContext :=
  (endpoint.hosted ref).context

/-- A registry. -/
def registry (endpoint : Endpoint Handler Application) (ref : RegistryRef) : Registry :=
  endpoint.registries.getD ref.index default

/-- An entity. -/
def entity? (endpoint : Endpoint Handler Application) (ref : EntityRef) : Option Entity :=
  (endpoint.context ref.context).entity? ref.place

/-! ### Writing -/

/-- The endpoint with another number at a source. -/
def setCounter (ref : CounterRef) (number : Nat) (endpoint : Endpoint Handler Application) :
    Endpoint Handler Application :=
  { endpoint with counters := endpoint.counters.set ref.index number }

/-- The endpoint with a channel changed. -/
def setChannel (ref : ChannelRef) (channel : Channel Handler)
    (endpoint : Endpoint Handler Application) : Endpoint Handler Application :=
  { endpoint with channels := endpoint.channels.set ref.index channel }

/-- The endpoint with a context and what belongs to it changed. -/
def setHosted (ref : ContextRef) (hosted : Hosted) (endpoint : Endpoint Handler Application) :
    Endpoint Handler Application :=
  { endpoint with contexts := endpoint.contexts.set ref.index hosted }

/-- The endpoint with a context changed. -/
def setContext (ref : ContextRef) (context : SecurityContext)
    (endpoint : Endpoint Handler Application) : Endpoint Handler Application :=
  endpoint.setHosted ref { endpoint.hosted ref with context }

/-- The endpoint with a registry changed. -/
def setRegistry (ref : RegistryRef) (registry : Registry)
    (endpoint : Endpoint Handler Application) : Endpoint Handler Application :=
  { endpoint with registries := endpoint.registries.set ref.index registry }

/-- The endpoint with an entity changed; its identifier stays the same. -/
def setEntity (ref : EntityRef) (entity : Entity) (endpoint : Endpoint Handler Application) :
    Endpoint Handler Application :=
  endpoint.setContext ref.context ((endpoint.context ref.context).setEntity ref.place entity)

/-! ### Drawing numbers -/

/-- Draws the next number of a source. -/
def nextNumber (ref : CounterRef) : Action Handler Application Nat := fun endpoint =>
  let number := endpoint.counter ref + 1
  (number, endpoint.setCounter ref number)

/-! ### Making objects -/

/-- Makes a source of numbers that gave out none. -/
def makeCounter : Action Handler Application CounterRef := fun endpoint =>
  (⟨endpoint.counters.length⟩, { endpoint with counters := endpoint.counters ++ [0] })

/-- Makes a channel without handlers. -/
def makeChannel : Action Handler Application ChannelRef := fun endpoint =>
  (⟨endpoint.channels.length⟩, { endpoint with channels := endpoint.channels ++ [{}] })

/-- Makes a registry without contexts, with a source and a channel of its own. -/
def makeRegistry : Action Handler Application RegistryRef := do
  let counter ← makeCounter
  let channel ← makeChannel
  fun endpoint =>
    (⟨endpoint.registries.length⟩,
      { endpoint with registries := endpoint.registries ++ [{ counter, channel }] })

/-- Hosts a context, with a channel of its own and no transfers. -/
def host (context : SecurityContext) : Action Handler Application ContextRef := do
  let channel ← makeChannel
  fun endpoint =>
    (⟨endpoint.contexts.length⟩,
      { endpoint with contexts := endpoint.contexts ++ [{ context, channel }] })

/-! ### Events -/

/-- Registers a handler and answers its number. -/
def subscribe (ref : ChannelRef) (handler : Handler) : Action Handler Application Nat :=
  fun endpoint =>
    let (number, channel) := (endpoint.channel ref).subscribe handler
    (number, endpoint.setChannel ref channel)

/-- Removes the handler of a number. The answer says whether there was one. -/
def unsubscribe (ref : ChannelRef) (number : Nat) : Action Handler Application Bool :=
  fun endpoint =>
    let (removed, channel) := (endpoint.channel ref).unsubscribe number
    (removed, endpoint.setChannel ref channel)

/-- Passes an event through the handlers that are registered at this moment. -/
def raise (behaviour : Behaviour Handler Application) (ref : ChannelRef) (event : Event) :
    Action Handler Application Event := do
  let channel := (← get).channel ref
  channel.handlers.foldlM (fun event entry => behaviour entry.2 event) event

end Endpoint

end Oscore
