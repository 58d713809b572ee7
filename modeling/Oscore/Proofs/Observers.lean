/-
This file says what operations do to the context of an endpoint whose handlers
only observe. Handlers may then keep what they are told, register and remove
other handlers and host contexts of their own, but they leave every context as
it is. So an operation leaves the context that it leaves by itself, whatever the
handlers are, and raises the events of its notices, which a handler may note.
-/

import Oscore.Proofs.LawfulActions

namespace Oscore

variable {Handler Application Answer : Type}

namespace Endpoint

variable {before after later endpoint : Endpoint Handler Application} {ref : ContextRef}
  {context : SecurityContext}

/-! ### Hosted contexts -/

/-- A reference that was given out and stands for a context. -/
def Hosts (endpoint : Endpoint Handler Application) (ref : ContextRef)
    (context : SecurityContext) : Prop :=
  ref.index < endpoint.contexts.length ∧ endpoint.context ref = context

theorem Hosts.setContext (hosts : endpoint.Hosts ref context) (next : SecurityContext) :
    (endpoint.setContext ref next).Hosts ref next :=
  ⟨by rw [length_setContext]; exact hosts.1,
    by rw [context_setContext, if_pos ⟨rfl, hosts.1⟩]⟩

/-- An endpoint that has all contexts of another as they were, and maybe more. -/
def Keeps (before after : Endpoint Handler Application) : Prop :=
  ∀ ref context, before.Hosts ref context → after.Hosts ref context

theorem Keeps.refl (endpoint : Endpoint Handler Application) : endpoint.Keeps endpoint :=
  fun _ _ hosts => hosts

theorem Keeps.trans (first : before.Keeps after) (second : after.Keeps later) :
    before.Keeps later :=
  fun ref context hosts => second ref context (first ref context hosts)

end Endpoint

/-! ### Handlers that observe -/

/-- Handlers that leave every context as it is, whatever the event. -/
def Behaviour.Observes (behaviour : Behaviour Handler Application) : Prop :=
  ∀ handler event (endpoint : Endpoint Handler Application),
    endpoint.Keeps (behaviour handler event endpoint).2

namespace Endpoint

variable {behaviour : Behaviour Handler Application} {endpoint : Endpoint Handler Application}
  {ref : ContextRef} {context : SecurityContext}

theorem raise_keeps (observes : behaviour.Observes) (channel : ChannelRef) (event : Event)
    (endpoint : Endpoint Handler Application) :
    endpoint.Keeps (raise behaviour channel event endpoint).2 := by
  have each (handlers : List (Nat × Handler)) (event : Event)
      (endpoint : Endpoint Handler Application) : endpoint.Keeps
        (handlers.foldlM (fun event entry => behaviour entry.2 event) event endpoint).2 := by
    induction handlers generalizing event endpoint with
    | nil => exact Keeps.refl endpoint
    | cons entry rest inductionHypothesis =>
      rw [List.foldlM_cons, Action.bind_apply]
      exact (observes entry.2 event endpoint).trans (inductionHypothesis _ _)
  exact each _ event endpoint

theorem announce_keeps (observes : behaviour.Observes) (ref : ContextRef) (notices : List Notice)
    (endpoint : Endpoint Handler Application) :
    endpoint.Keeps (announce behaviour ref notices endpoint).2 := by
  induction notices generalizing endpoint with
  | nil => exact Keeps.refl endpoint
  | cons notice rest inductionHypothesis =>
    exact (raise_keeps observes _ _ endpoint).trans (inductionHypothesis _)

/-- Observers change nothing of what an operation leaves. -/
theorem perform_hosts (observes : behaviour.Observes) (run : SecurityContext → Outcome Answer)
    (hosts : endpoint.Hosts ref context) :
    (perform behaviour ref run endpoint).2.Hosts ref (run context).context := by
  rw [perform_eq, hosts.2]
  exact announce_keeps observes ref _ _ ref _ (hosts.setContext _)

theorem change_hosts (make : SecurityContext → Except Refusal SecurityContext)
    (hosts : endpoint.Hosts ref context) :
    (change ref make endpoint).2.Hosts ref ((make context).toOption.getD context) := by
  rw [change_eq, hosts.2]
  cases make context with
  | error refusal => exact hosts
  | ok next => exact hosts.setContext next

/-- Encrypting a message leaves the endpoint that taking its nonce leaves. -/
theorem protect_state (behaviour : Behaviour Handler Application) (ref : ContextRef)
    (associated plaintext : Bytes) (endpoint : Endpoint Handler Application) :
    (protect behaviour ref associated plaintext endpoint).2 =
      (reserve behaviour ref endpoint).2 := by
  rw [protect, Action.bind_apply]
  cases (reserve behaviour ref endpoint).1 <;> rfl

/-- Where handlers only observe, a message is answered as the context by itself answers it. -/
theorem protect_answer (observes : behaviour.Observes) (hosts : endpoint.Hosts ref context)
    (associated plaintext : Bytes) :
    (protect behaviour ref associated plaintext endpoint).1 =
      (context.protect associated plaintext).answer := by
  have answered : (reserve behaviour ref endpoint).1 = context.reserve.answer := by
    rw [reserve, perform_eq, hosts.2]
  have left : (reserve behaviour ref endpoint).2.context ref = context.reserve.context :=
    (perform_hosts observes SecurityContext.reserve hosts).2
  rw [protect, Action.bind_apply, SecurityContext.protect, answered]
  cases context.reserve.answer with
  | error refusal => rfl
  | ok reserved =>
    show (((reserve behaviour ref endpoint).2.context ref).encryptReserved reserved associated
      plaintext) = _
    rw [left]
    rfl

/-- Uses the handle of an entity. -/
def adjust (ref : EntityRef) (adjustment : Adjustment) : Action Handler Application Unit :=
  modify fun endpoint =>
    match endpoint.entity? ref with
    | some entity => endpoint.setEntity ref (adjustment.result entity)
    | none => endpoint

theorem adjust_hosts (hosts : endpoint.Hosts ref context) (place : Place)
    (adjustment : Adjustment) :
    (adjust ⟨ref, place⟩ adjustment endpoint).2.Hosts ref
      ((Operation.adjust place adjustment).next context) := by
  show Hosts (match (endpoint.context ref).entity? place with
    | some entity => endpoint.setEntity ⟨ref, place⟩ (adjustment.result entity)
    | none => endpoint) ref _
  rw [Operation.next, hosts.2]
  cases context.entity? place with
  | none => exact hosts
  | some entity =>
    show (endpoint.setContext ref _).Hosts ref _
    rw [hosts.2]
    exact hosts.setContext _

end Endpoint

/-! ### Operations at an endpoint -/

/-- Does an operation to a context of an endpoint, and raises the events that it gives rise to. -/
def Operation.act (behaviour : Behaviour Handler Application) (ref : ContextRef) :
    Operation → Action Handler Application Unit
  | reserve => discard <| Endpoint.reserve behaviour ref
  | protect associated plaintext =>
    discard <| Endpoint.protect behaviour ref associated plaintext
  | unprotect id partialIv associated ciphertext =>
    discard <| Endpoint.unprotect behaviour ref id partialIv associated ciphertext
  | record id sequence => discard <| Endpoint.record behaviour ref id sequence
  | isReplay _ _ => pure ()
  | addRecipient id key => discard <| Endpoint.addRecipient ref id key
  | replaceSender id key => discard <| Endpoint.replaceSender ref id key
  | adjust place adjustment => Endpoint.adjust ⟨ref, place⟩ adjustment

/-- Where handlers only observe, an operation makes of a context of an endpoint what it makes of
the context by itself. -/
theorem Operation.act_hosts {behaviour : Behaviour Handler Application}
    (observes : behaviour.Observes) {endpoint : Endpoint Handler Application} {ref : ContextRef}
    {context : SecurityContext} (hosts : endpoint.Hosts ref context) (operation : Operation) :
    (operation.act behaviour ref endpoint).2.Hosts ref (operation.next context) := by
  cases operation with
  | reserve => exact Endpoint.perform_hosts observes SecurityContext.reserve hosts
  | protect associated plaintext =>
    show (Endpoint.protect behaviour ref associated plaintext endpoint).2.Hosts ref _
    rw [Endpoint.protect_state]
    exact Endpoint.perform_hosts observes SecurityContext.reserve hosts
  | unprotect id partialIv associated ciphertext =>
    exact Endpoint.perform_hosts observes
      (fun context => context.unprotect id partialIv associated ciphertext) hosts
  | record id sequence =>
    exact Endpoint.perform_hosts observes (fun context => context.record id sequence) hosts
  | isReplay id sequence => exact hosts
  | addRecipient id key =>
    exact Endpoint.change_hosts (fun context => context.addRecipient id key) hosts
  | replaceSender id key =>
    exact Endpoint.change_hosts (fun context => context.replaceSender id key) hosts
  | adjust place adjustment => exact Endpoint.adjust_hosts hosts place adjustment

/-! ### Events that are raised -/

/-- A handler that only notes what it is told, in a log that the application keeps. -/
def Behaviour.Notes (behaviour : Behaviour Handler Application) (log : Application → List Event)
    (handler : Handler) : Prop :=
  ∀ event (endpoint : Endpoint Handler Application), ∃ application,
    behaviour handler event endpoint = (event, { endpoint with application }) ∧
      log application = log endpoint.application ++ [event]

namespace Endpoint

variable {behaviour : Behaviour Handler Application} {ref : ContextRef}
  {before after later endpoint : Endpoint Handler Application} {events more : List Event}
  {context : SecurityContext}

/-- What an endpoint comes to when a context of it changes and raises some events on its channel, in
this order, and nothing else is done. -/
inductive Raises (behaviour : Behaviour Handler Application) (ref : ContextRef)
    (before : Endpoint Handler Application) : List Event → Endpoint Handler Application → Prop
  /-- Nothing happened. -/
  | nothing : Raises behaviour ref before [] before
  /-- The context changed. -/
  | changes {events : List Event} {after : Endpoint Handler Application}
      (raises : Raises behaviour ref before events after) (context : SecurityContext) :
      Raises behaviour ref before events (after.setContext ref context)
  /-- An event went through the handlers. -/
  | event {events : List Event} {after : Endpoint Handler Application}
      (raises : Raises behaviour ref before events after) (event : Event) :
      Raises behaviour ref before (events ++ [event])
        (raise behaviour (after.hosted ref).channel event after).2

theorem Raises.trans (first : Raises behaviour ref before events after)
    (second : Raises behaviour ref after more later) :
    Raises behaviour ref before (events ++ more) later := by
  induction second with
  | nothing =>
    rw [List.append_nil]
    exact first
  | changes _ context inductionHypothesis => exact inductionHypothesis.changes context
  | event _ event inductionHypothesis =>
    rw [← List.append_assoc]
    exact inductionHypothesis.event event

/-- The notices of a context that handlers leave alone are raised one after another. -/
theorem announce_raises (observes : behaviour.Observes) (hosts : endpoint.Hosts ref context)
    (notices : List Notice) :
    Raises behaviour ref endpoint (notices.map fun notice => notice.event context.groupId ref)
      (announce behaviour ref notices endpoint).2 := by
  induction notices generalizing endpoint with
  | nil => exact .nothing
  | cons notice rest inductionHypothesis =>
    have now := (@Raises.nothing _ _ behaviour ref endpoint).event
      (notice.event context.groupId ref)
    have told := raise_keeps observes (endpoint.hosted ref).channel
      (notice.event context.groupId ref) endpoint ref context hosts
    have group : (endpoint.hosted ref).context.groupId = context.groupId :=
      congrArg SecurityContext.groupId hosts.2
    have rest := now.trans (inductionHypothesis told)
    rw [← group] at rest ⊢
    exact rest

/-- An operation changes the context and then raises the events of its notices. -/
theorem perform_raises (observes : behaviour.Observes) (run : SecurityContext → Outcome Answer)
    (hosts : endpoint.Hosts ref context) :
    Raises behaviour ref endpoint
      ((run context).notices.map fun notice => notice.event (run context).context.groupId ref)
      (perform behaviour ref run endpoint).2 := by
  rw [perform_eq, hosts.2]
  exact (Raises.nothing.changes _).trans (announce_raises observes (hosts.setContext _) _)

/-- A handler that notes what it is told, alone on the channel of the context, has the raised events
in their order. -/
theorem Raises.noted {log : Application → List Event} {entry : Nat × Handler}
    (notes : behaviour.Notes log entry.2)
    (alone : (before.channel (before.hosted ref).channel).handlers = [entry])
    (raises : Raises behaviour ref before events after) :
    log after.application = log before.application ++ events ∧
      (after.channel (after.hosted ref).channel).handlers = [entry] := by
  induction raises with
  | nothing => exact ⟨(List.append_nil _).symm, alone⟩
  | @changes events after _ context inductionHypothesis =>
    obtain ⟨noted, still⟩ := inductionHypothesis
    refine ⟨noted, ?_⟩
    rw [channel_setContext]
    exact still
  | @event events after _ event inductionHypothesis =>
    obtain ⟨noted, still⟩ := inductionHypothesis
    obtain ⟨application, handled, grown⟩ := notes event after
    have told : (raise behaviour (after.hosted ref).channel event after).2 =
        { after with application } := by
      rw [raise, Action.bind_apply, Action.get_apply]
      dsimp only
      rw [still, List.foldlM_cons, Action.bind_apply, handled]
      rfl
    rw [told]
    refine ⟨?_, still⟩
    rw [grown, noted, List.append_assoc]

end Endpoint

namespace Operation

/-- The notices that an operation gives. -/
def notices (context : SecurityContext) : Operation → List Notice
  | reserve => context.reserve.notices
  | protect associated plaintext => (context.protect associated plaintext).notices
  | unprotect id partialIv associated ciphertext =>
    (context.unprotect id partialIv associated ciphertext).notices
  | record id sequence => (context.record id sequence).notices
  | isReplay _ _ | addRecipient _ _ | replaceSender _ _ | adjust _ _ => []

/-- The events of the notices that an operation gives. -/
def events (ref : ContextRef) (context : SecurityContext) (operation : Operation) : List Event :=
  (operation.notices context).map fun notice =>
    notice.event (operation.next context).groupId ref

/-- Where handlers only observe, an operation raises the events of its notices. -/
theorem act_raises {behaviour : Behaviour Handler Application} (observes : behaviour.Observes)
    {endpoint : Endpoint Handler Application} {ref : ContextRef} {context : SecurityContext}
    (hosts : endpoint.Hosts ref context) (operation : Operation) :
    Endpoint.Raises behaviour ref endpoint (operation.events ref context)
      (operation.act behaviour ref endpoint).2 := by
  have change_raises (make : SecurityContext → Except Refusal SecurityContext) :
      Endpoint.Raises behaviour ref endpoint [] (Endpoint.change ref make endpoint).2 := by
    rw [Endpoint.change_eq]
    cases make (endpoint.context ref) with
    | error refusal => exact .nothing
    | ok next => exact Endpoint.Raises.nothing.changes next
  cases operation with
  | reserve => exact Endpoint.perform_raises observes SecurityContext.reserve hosts
  | protect associated plaintext =>
    show Endpoint.Raises behaviour ref endpoint _
      (Endpoint.protect behaviour ref associated plaintext endpoint).2
    rw [Endpoint.protect_state]
    exact Endpoint.perform_raises observes SecurityContext.reserve hosts
  | unprotect id partialIv associated ciphertext =>
    exact Endpoint.perform_raises observes
      (fun context => context.unprotect id partialIv associated ciphertext) hosts
  | record id sequence =>
    exact Endpoint.perform_raises observes (fun context => context.record id sequence) hosts
  | isReplay id sequence => exact .nothing
  | addRecipient id key => exact change_raises fun context => context.addRecipient id key
  | replaceSender id key => exact change_raises fun context => context.replaceSender id key
  | adjust place adjustment =>
    show Endpoint.Raises behaviour ref endpoint [] (match (endpoint.context ref).entity? place with
      | some entity => endpoint.setEntity ⟨ref, place⟩ (adjustment.result entity)
      | none => endpoint)
    split
    · exact Endpoint.Raises.nothing.changes _
    · exact .nothing

end Operation

/-! ### Runs -/

/-- The events of the notices that a run of operations gives, in their order. -/
def SecurityContext.events (ref : ContextRef) (context : SecurityContext) :
    List Operation → List Event
  | [] => []
  | operation :: rest => operation.events ref context ++ (operation.next context).events ref rest

namespace Endpoint

/-- An endpoint after some operations on a context, one after another. -/
def after (behaviour : Behaviour Handler Application) (ref : ContextRef)
    (endpoint : Endpoint Handler Application) (operations : List Operation) :
    Endpoint Handler Application :=
  operations.foldl (fun endpoint operation => (operation.act behaviour ref endpoint).2) endpoint

variable {behaviour : Behaviour Handler Application} {endpoint : Endpoint Handler Application}
  {ref : ContextRef} {context : SecurityContext}

theorem after_hosts (observes : behaviour.Observes) (hosts : endpoint.Hosts ref context)
    (operations : List Operation) :
    (endpoint.after behaviour ref operations).Hosts ref (context.after operations) := by
  induction operations generalizing endpoint context with
  | nil => exact hosts
  | cons operation rest inductionHypothesis =>
    exact inductionHypothesis (operation.act_hosts observes hosts)

/-- Where handlers only observe, a run raises the events of its notices. -/
theorem after_raises (observes : behaviour.Observes) (hosts : endpoint.Hosts ref context)
    (operations : List Operation) :
    Raises behaviour ref endpoint (context.events ref operations)
      (endpoint.after behaviour ref operations) := by
  induction operations generalizing endpoint context with
  | nil => exact .nothing
  | cons operation rest inductionHypothesis =>
    exact (operation.act_raises observes hosts).trans
      (inductionHypothesis (operation.act_hosts observes hosts))

end Endpoint

end Oscore
