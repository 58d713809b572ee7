/-
This file derives contexts into an endpoint and runs them there.

A derivation draws the number of its context last, when nothing can fail any
more. An operation that gives notices first leaves its context behind and then
raises the events, so that handlers see what the operation did.
-/

import Oscore.Endpoint
import Oscore.Group
import Oscore.InputParameters

namespace Oscore.Endpoint

variable {Handler Application : Type}

/-! ### Deriving contexts -/

/-- Derives the context of a sender and one recipient. -/
def derive (counter : CounterRef) (keying : Keying) (sender recipient : Bytes) :
    Action Handler Application (Except Refusal ContextRef) := do
  match SecurityContext.prepare keying sender recipient with
  | .error refusal => return .error refusal
  | .ok assemble =>
    let number ← nextNumber counter
    return .ok (← host (assemble number))

/-- Derives the context of a group. -/
def deriveGroup (counter : CounterRef) (parameters : GroupParameters) :
    Action Handler Application (Except Refusal ContextRef) := do
  match SecurityContext.prepareGroup parameters with
  | .error refusal => return .error refusal
  | .ok assemble =>
    let number ← nextNumber counter
    return .ok (← host (assemble number))

/-- Derives the context of a client or a server. -/
def deriveFromParameters (counter : CounterRef) (parameters : InputParameters)
    (role : EndpointRole) (nonces : Option (Bytes × Bytes)) (limits : Limits) :
    Action Handler Application (Except Refusal ContextRef) :=
  let (sender, recipient) := parameters.identifiers role
  derive counter (parameters.keying nonces limits) sender recipient

/-- Derives the context between the sender of a group context and one member. -/
def derivePair (ref : ContextRef) (id : Bytes) (counter : CounterRef) :
    Action Handler Application (Except Refusal ContextRef) := do
  match ((← get).context ref).preparePair id with
  | .error refusal => return .error refusal
  | .ok assemble =>
    let number ← nextNumber counter
    return .ok (← host (assemble number))

/-- Hosts a copy of a context, without its handlers and transfers. -/
def duplicate (ref : ContextRef) : Action Handler Application ContextRef := do
  host ((← get).context ref).duplicate

/-! ### Changing contexts -/

/-- Changes a context, or leaves it as it was when the change is refused. -/
def change (ref : ContextRef) (make : SecurityContext → Except Refusal SecurityContext) :
    Action Handler Application (Except Refusal Unit) := do
  match make ((← get).context ref) with
  | .error refusal => return .error refusal
  | .ok context =>
    modify (setContext ref context)
    return .ok ()

/-- Adds a member. -/
def addRecipient (ref : ContextRef) (id : Bytes) (key : SigningKey) :
    Action Handler Application (Except Refusal Unit) :=
  change ref fun context => context.addRecipient id key

/-- Derives the sender anew under another identifier. -/
def replaceSender (ref : ContextRef) (id : Bytes) (key : SigningKey) :
    Action Handler Application (Except Refusal Unit) :=
  change ref fun context => context.replaceSender id key

/-! ### Running contexts -/

/-- Raises the events of notices on the channel of the context that gave them. -/
def announce (behaviour : Behaviour Handler Application) (ref : ContextRef)
    (notices : List Notice) : Action Handler Application Unit :=
  notices.forM fun notice => do
    let hosted := (← get).hosted ref
    discard <| raise behaviour hosted.channel (notice.event hosted.context.groupId ref)

/-- Runs an operation on a context. -/
def perform {Answer : Type} (behaviour : Behaviour Handler Application) (ref : ContextRef)
    (operation : SecurityContext → Outcome Answer) :
    Action Handler Application (Except Refusal Answer) := do
  let outcome := operation ((← get).context ref)
  modify (setContext ref outcome.context)
  announce behaviour ref outcome.notices
  return outcome.answer

/-- Takes the next nonce of the sender. -/
def reserve (behaviour : Behaviour Handler Application) (ref : ContextRef) :
    Action Handler Application (Except Refusal SecurityContext.ReservedNonce) :=
  perform behaviour ref SecurityContext.reserve

/-- Accepts a sequence number from a recipient. -/
def record (behaviour : Behaviour Handler Application) (ref : ContextRef) (id : Bytes)
    (sequence : Nat) : Action Handler Application (Except Refusal Unit) :=
  perform behaviour ref fun context => context.record id sequence

/-- Encrypts a message under the next nonce of the sender. The nonce is taken first; the key is
read when the handlers are done. -/
def protect (behaviour : Behaviour Handler Application) (ref : ContextRef)
    (associated plaintext : Bytes) :
    Action Handler Application (Except Refusal SecurityContext.ProtectedMessage) := do
  match ← reserve behaviour ref with
  | .error refusal => return .error refusal
  | .ok reserved => return ((← get).context ref).encryptReserved reserved associated plaintext

/-- Decrypts a message and accepts its sequence number. -/
def unprotect (behaviour : Behaviour Handler Application) (ref : ContextRef)
    (id partialIv associated ciphertext : Bytes) :
    Action Handler Application (Except Refusal Bytes) :=
  perform behaviour ref fun context => context.unprotect id partialIv associated ciphertext

end Oscore.Endpoint
