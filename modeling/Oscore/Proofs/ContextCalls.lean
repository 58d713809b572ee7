/-
This file says what calls at the contexts of an endpoint answer when no handler
listens to them. A call is answered as its context by itself answers it, and
leaves the other contexts as they are. So the calls at several contexts may be
mixed in any order: each context answers as if only its own calls were made.
The only thing that contexts share is the sources of numbers for the pairs that
they derive; calls that draw from one source can tell the order by these numbers,
and by nothing else.
-/

import Oscore.Proofs.GroupKeys
import Oscore.Proofs.Refusals

namespace Oscore

variable {Handler Application Answer : Type}

/-! ### Calls -/

/-- A call at a context. -/
inductive Method
  /-- Takes the next nonce. -/
  | reserve
  /-- Encrypts a message. -/
  | protect (associated plaintext : Bytes)
  /-- Accepts a sequence number. -/
  | record (id : Bytes) (sequence : Nat)
  /-- Asks whether a sequence number must be refused. -/
  | isReplay (id : Bytes) (sequence : Nat)
  /-- Decrypts a message. -/
  | unprotect (id partialIv associated ciphertext : Bytes)
  /-- Adds a member. -/
  | addRecipient (id : Bytes) (key : SigningKey)
  /-- Derives the sender anew. -/
  | replaceSender (id : Bytes) (key : SigningKey)
  /-- Derives the context between the sender and one member, under a number of a source. -/
  | derivePair (id : Bytes) (counter : CounterRef)

/-- What a call answers: all that was read or made. -/
inductive Reply
  | nonce (answer : Except Refusal SecurityContext.ReservedNonce)
  | message (answer : Except Refusal SecurityContext.ProtectedMessage)
  | recorded (answer : Except Refusal Unit)
  | replay (answer : Except Refusal Bool)
  | plaintext (answer : Except Refusal Bytes)
  /-- The member that was added. -/
  | member (answer : Except Refusal Entity)
  | replaced (answer : Except Refusal Unit)
  /-- The context of the pair. -/
  | pair (answer : Except Refusal SecurityContext)

/-- A reply without the number of a context that was made. -/
def Reply.unnumbered : Reply → Reply
  | pair answer => pair (answer.map fun context => { context with number := 0 })
  | reply => reply

namespace Method

/-- The source that a call draws from, if it draws. -/
def source? : Method → Option CounterRef
  | derivePair _ counter => some counter
  | _ => none

/-- Makes a call at a context of an endpoint. -/
def call (behaviour : Behaviour Handler Application) (ref : ContextRef) :
    Method → Action Handler Application Reply
  | reserve => return .nonce (← Endpoint.reserve behaviour ref)
  | protect associated plaintext =>
    return .message (← Endpoint.protect behaviour ref associated plaintext)
  | record id sequence => return .recorded (← Endpoint.record behaviour ref id sequence)
  | isReplay id sequence => return .replay (((← get).context ref).isReplay id sequence)
  | unprotect id partialIv associated ciphertext =>
    return .plaintext (← Endpoint.unprotect behaviour ref id partialIv associated ciphertext)
  | addRecipient id key => do
    let answer ← Endpoint.addRecipient ref id key
    let added := (← get).context ref
    return .member (answer.bind fun _ => added.recipient id)
  | replaceSender id key => return .replaced (← Endpoint.replaceSender ref id key)
  | derivePair id counter => do
    let answer ← Endpoint.derivePair ref id counter
    let endpoint ← get
    return .pair (answer.map endpoint.context)

/-! ### Calls at a context by itself -/

/-- What a context by itself answers, given the last numbers of all sources. -/
def reply (context : SecurityContext) (counters : List Nat) : Method → Reply
  | reserve => .nonce context.reserve.answer
  | protect associated plaintext => .message (context.protect associated plaintext).answer
  | record id sequence => .recorded (context.record id sequence).answer
  | isReplay id sequence => .replay (context.isReplay id sequence)
  | unprotect id partialIv associated ciphertext =>
    .plaintext (context.unprotect id partialIv associated ciphertext).answer
  | addRecipient id key =>
    .member ((context.addRecipient id key).bind fun added => added.recipient id)
  | replaceSender id key => .replaced ((context.replaceSender id key).map fun _ => ())
  | derivePair id counter => .pair (context.derivePair id (counters.getD counter.index 0 + 1))

/-- The context that a call leaves. -/
def next (context : SecurityContext) : Method → SecurityContext
  | reserve => context.reserve.context
  | protect associated plaintext => (context.protect associated plaintext).context
  | record id sequence => (context.record id sequence).context
  | isReplay _ _ => context
  | unprotect id partialIv associated ciphertext =>
    (context.unprotect id partialIv associated ciphertext).context
  | addRecipient id key => (context.addRecipient id key).toOption.getD context
  | replaceSender id key => (context.replaceSender id key).toOption.getD context
  | derivePair _ _ => context

/-- The last numbers of all sources after a call: a pair that was derived has the next number of
its source. -/
def numbers (context : SecurityContext) (counters : List Nat) : Method → List Nat
  | derivePair id counter =>
    match context.derivePair id (counters.getD counter.index 0 + 1) with
    | .error _ => counters
    | .ok _ => counters.set counter.index (counters.getD counter.index 0 + 1)
  | _ => counters

/-- What a context by itself answers to one call after another. -/
def replies (context : SecurityContext) (counters : List Nat) : List Method → List Reply
  | [] => []
  | method :: rest =>
    method.reply context counters ::
      replies (method.next context) (method.numbers context counters) rest

end Method

/-! ### What numbers make a difference to -/

/-- The number of a pair is all of it that its source has a say in. -/
theorem SecurityContext.derivePair_eq_map (context : SecurityContext) (id : Bytes) (number : Nat) :
    context.derivePair id number =
      (context.derivePair id 0).map fun pair => { pair with number } := by
  show _ = (fun pair : SecurityContext => { pair with number }) <$> context.derivePair id 0
  rw [derivePair, derivePair, preparePair, bind_assoc, bind_assoc, map_bind]
  refine bind_congr fun member => ?_
  cases context.sender.signingKey with
  | none => rfl
  | some localKey =>
    cases member.signingKey with
    | none => rfl
    | some memberKey => simp only [bind_assoc, pure_bind, map_bind, map_pure]

namespace Method

variable {method : Method} {context : SecurityContext} {counters others : List Nat} {index : Nat}

theorem unnumbered_reply (method : Method) (context : SecurityContext)
    (counters others : List Nat) :
    (method.reply context counters).unnumbered = (method.reply context others).unnumbered := by
  cases method with
  | derivePair id counter =>
    rw [reply, reply, context.derivePair_eq_map, context.derivePair_eq_map id (others.getD _ _ + 1)]
    cases context.derivePair id 0 <;> rfl
  | _ => rfl

/-- A call looks at the source that it draws from only. -/
theorem reply_congr
    (same : ∀ counter ∈ method.source?, counters[counter.index]? = others[counter.index]?) :
    method.reply context counters = method.reply context others := by
  cases method with
  | derivePair id counter =>
    rw [reply, reply, List.getD_eq_getElem?_getD, List.getD_eq_getElem?_getD, same counter rfl]
  | _ => rfl

theorem numbers_congr
    (same : ∀ counter ∈ method.source?, counters[counter.index]? = others[counter.index]?)
    (equal : counters[index]? = others[index]?) :
    (method.numbers context counters)[index]? = (method.numbers context others)[index]? := by
  cases method with
  | derivePair id counter =>
    have drawn : counters.getD counter.index 0 = others.getD counter.index 0 := by
      rw [List.getD_eq_getElem?_getD, List.getD_eq_getElem?_getD, same counter rfl]
    rw [numbers, numbers, drawn]
    cases context.derivePair id (others.getD counter.index 0 + 1) with
    | error refusal => exact equal
    | ok pair =>
      dsimp only
      rw [List.getElem?_set', List.getElem?_set', equal]
  | _ => exact equal

theorem numbers_of_ne (apart : ∀ counter ∈ method.source?, counter.index ≠ index) :
    (method.numbers context counters)[index]? = counters[index]? := by
  cases method with
  | derivePair id counter =>
    rw [numbers]
    split
    · rfl
    · exact List.getElem?_set_ne (apart counter rfl)
  | _ => rfl

end Method

/-! ### Contexts without handlers -/

namespace Endpoint

variable {behaviour : Behaviour Handler Application}
  {before after endpoint : Endpoint Handler Application} {ref other : ContextRef}
  {context : SecurityContext}

/-- A context of an endpoint to which no handler listens. -/
structure Quiet (endpoint : Endpoint Handler Application) (ref : ContextRef)
    (context : SecurityContext) : Prop where
  hosts : endpoint.Hosts ref context
  silent : (endpoint.channel (endpoint.hosted ref).channel).handlers = []

/-- What changes one context at most, and maybe hosts more. -/
structure Confined (ref : ContextRef) (before after : Endpoint Handler Application) : Prop where
  channel_eq : ∀ channel, after.channel channel = before.channel channel
  hosted : ∀ other : ContextRef, other.index < before.contexts.length →
    other.index < after.contexts.length ∧
      (after.hosted other).channel = (before.hosted other).channel ∧
      (other ≠ ref → after.context other = before.context other)

theorem Confined.refl (ref : ContextRef) (endpoint : Endpoint Handler Application) :
    Confined ref endpoint endpoint :=
  ⟨fun _ => rfl, fun _ inside => ⟨inside, rfl, fun _ => rfl⟩⟩

/-- A context stays quiet, whatever becomes of it. -/
theorem Quiet.confined (quiet : before.Quiet other context) (confined : Confined ref before after)
    {left : SecurityContext} (leaves : after.context other = left) : after.Quiet other left := by
  obtain ⟨inside, channel, -⟩ := confined.hosted other quiet.hosts.1
  refine ⟨⟨inside, leaves⟩, ?_⟩
  rw [channel, confined.channel_eq]
  exact quiet.silent

/-- What is done to one context leaves the others as they are. -/
theorem Quiet.of_ne (quiet : before.Quiet other context) (confined : Confined ref before after)
    (different : other ≠ ref) : after.Quiet other context := by
  obtain ⟨-, -, same⟩ := confined.hosted other quiet.hosts.1
  exact quiet.confined confined ((same different).trans quiet.hosts.2)

theorem hosted_setContext_channel (context : SecurityContext) (ref other : ContextRef) :
    ((endpoint.setContext ref context).hosted other).channel = (endpoint.hosted other).channel := by
  by_cases same : ref = other
  · subst same
    exact channel_setContext context
  · have apart : ref.index ≠ other.index := fun equal => same (congrArg ContextRef.mk equal)
    rw [hosted, setContext, setHosted, List.getD_eq_getElem?_getD, List.getElem?_set_ne apart,
      ← List.getD_eq_getElem?_getD, ← hosted]

theorem confined_setContext (endpoint : Endpoint Handler Application) (ref : ContextRef)
    (context : SecurityContext) : Confined ref endpoint (endpoint.setContext ref context) := by
  refine ⟨fun _ => rfl, fun other inside => ⟨?_, hosted_setContext_channel context ref other, ?_⟩⟩
  · rw [length_setContext]
    exact inside
  · intro different
    rw [context_setContext, if_neg fun both => different both.1.symm]

/-- Hosting a context with a channel of its own changes no other context. -/
theorem confined_host (endpoint : Endpoint Handler Application) (ref : ContextRef)
    (counters : List Nat) (made : Hosted) :
    Confined ref endpoint { endpoint with
      counters
      channels := endpoint.channels ++ [{}]
      contexts := endpoint.contexts ++ [made] } := by
  refine ⟨fun channel => ?_, fun other inside => ?_⟩
  · -- a channel that was not there yet reads as one without handlers
    show (endpoint.channels ++ [({} : Channel Handler)]).getD channel.index {} =
      endpoint.channels.getD channel.index {}
    rw [List.getD_eq_getElem?_getD, List.getD_eq_getElem?_getD, List.getElem?_append]
    split
    · rfl
    · rename_i outside
      rw [List.getElem?_eq_none (Nat.le_of_not_lt outside), List.getElem?_singleton]
      split <;> rfl
  · have same : (endpoint.contexts ++ [made]).getD other.index default =
        endpoint.contexts.getD other.index default := by
      rw [List.getD_eq_getElem?_getD, List.getElem?_append_left inside,
        ← List.getD_eq_getElem?_getD]
    refine ⟨?_, congrArg Hosted.channel same, fun _ => congrArg Hosted.context same⟩
    rw [List.length_append]
    exact Nat.lt_add_right _ inside

/-- A context that is hosted is quiet at first. -/
theorem quiet_host (endpoint : Endpoint Handler Application) (counters : List Nat)
    (context : SecurityContext) :
    Quiet { endpoint with
      counters
      channels := endpoint.channels ++ [{}]
      contexts := endpoint.contexts ++ [{ context, channel := ⟨endpoint.channels.length⟩ }] }
      ⟨endpoint.contexts.length⟩ context := by
  let made : Hosted := { context, channel := ⟨endpoint.channels.length⟩ }
  have hosted : (endpoint.contexts ++ [made]).getD endpoint.contexts.length default = made := by
    rw [List.getD_eq_getElem?_getD, List.getElem?_concat_length, Option.getD_some]
  refine ⟨⟨?_, congrArg Hosted.context hosted⟩, ?_⟩
  · rw [List.length_append]
    exact Nat.lt_succ_self _
  · show ((endpoint.channels ++ [({} : Channel Handler)]).getD
      ((endpoint.contexts ++ [_]).getD _ default).channel.index {}).handlers = []
    rw [hosted, List.getD_eq_getElem?_getD, List.getElem?_concat_length]
    rfl

/-! ### Calls at quiet contexts -/

theorem announce_of_silent (silent : (endpoint.channel (endpoint.hosted ref).channel).handlers = [])
    (notices : List Notice) : announce behaviour ref notices endpoint = ((), endpoint) := by
  induction notices with
  | nil => rfl
  | cons notice rest inductionHypothesis =>
    have unheard (event : Event) :
        (raise behaviour (endpoint.hosted ref).channel event endpoint).2 = endpoint := by
      show (((endpoint.channel (endpoint.hosted ref).channel).handlers.foldlM
        (fun event entry => behaviour entry.2 event) event) endpoint).2 = endpoint
      rw [silent]
      rfl
    show announce behaviour ref rest
      (raise behaviour (endpoint.hosted ref).channel _ endpoint).2 = _
    rw [unheard]
    exact inductionHypothesis

theorem perform_of_quiet (quiet : endpoint.Quiet ref context)
    (run : SecurityContext → Outcome Answer) :
    perform behaviour ref run endpoint =
      ((run context).answer, endpoint.setContext ref (run context).context) := by
  rw [perform_eq, quiet.hosts.2]
  have left : (endpoint.setContext ref (run context).context).Quiet ref (run context).context :=
    quiet.confined (confined_setContext endpoint ref _) (quiet.hosts.setContext _).2
  rw [announce_of_silent left.silent]

/-- What a call at a quiet context does: it answers as the context by itself, and leaves what the
context by itself leaves, without a trace elsewhere. -/
structure Serves (behaviour : Behaviour Handler Application) (ref : ContextRef)
    (context : SecurityContext) (method : Method) (before after : Endpoint Handler Application) :
    Prop where
  answers : method.call behaviour ref before = (method.reply context before.counters, after)
  leaves : after.context ref = method.next context
  counters_eq : after.counters = method.numbers context before.counters
  confined : Confined ref before after

/-- A call that runs an operation on its context and passes its answer on. -/
theorem serves_of_perform (quiet : before.Quiet ref context) {method : Method}
    (run : SecurityContext → Outcome Answer) (reply : Except Refusal Answer → Reply)
    (calls : method.call behaviour ref = do return reply (← perform behaviour ref run))
    (replies : method.reply context before.counters = reply (run context).answer)
    (leaves : method.next context = (run context).context)
    (free : method.numbers context before.counters = before.counters) :
    ∃ after, Serves behaviour ref context method before after := by
  refine ⟨before.setContext ref (run context).context, ?_, ?_, free.symm, confined_setContext _ _ _⟩
  · rw [calls, Action.bind_apply, perform_of_quiet quiet, replies]
    rfl
  · rw [leaves]
    exact (quiet.hosts.setContext _).2

/-- A call that changes its context, or leaves it as it was when the change is refused. -/
theorem serves_of_change (quiet : before.Quiet ref context) {method : Method}
    (make : SecurityContext → Except Refusal SecurityContext)
    (reply : Except Refusal Unit → SecurityContext → Reply)
    (calls : method.call behaviour ref = do
      let answer ← change ref make
      return reply answer ((← get).context ref))
    (replies : method.reply context before.counters =
      reply ((make context).map fun _ => ()) (method.next context))
    (leaves : method.next context = (make context).toOption.getD context)
    (free : method.numbers context before.counters = before.counters) :
    ∃ after, Serves behaviour ref context method before after := by
  have changed := change_eq ref make before
  rw [quiet.hosts.2] at changed
  rw [leaves] at replies
  cases made : make context with
  | error refusal =>
    rw [made] at changed replies leaves
    refine ⟨before, ?_, quiet.hosts.2.trans leaves.symm, free.symm, .refl ref before⟩
    rw [calls, Action.bind_apply, changed, replies]
    show (reply (.error refusal) (before.context ref), before) = _
    rw [quiet.hosts.2]
    rfl
  | ok later =>
    rw [made] at changed replies leaves
    have left := (quiet.hosts.setContext later).2
    refine ⟨before.setContext ref later, ?_, left.trans leaves.symm, free.symm,
      confined_setContext before ref later⟩
    rw [calls, Action.bind_apply, changed, replies]
    show (reply (.ok ()) ((before.setContext ref later).context ref),
      before.setContext ref later) = _
    rw [left]
    rfl

theorem hostNumbered_of_ok {counter : CounterRef} {make : Nat → Except Refusal SecurityContext}
    (made : make (endpoint.counter counter + 1) = .ok context) :
    hostNumbered counter make endpoint =
      (.ok ⟨endpoint.contexts.length⟩, { endpoint with
        counters := endpoint.counters.set counter.index (endpoint.counter counter + 1)
        channels := endpoint.channels ++ [{}]
        contexts := endpoint.contexts ++
          [{ context, channel := ⟨endpoint.channels.length⟩ }] }) := by
  rw [hostNumbered, Action.bind_apply, Action.get_apply]
  dsimp only
  rw [made]
  rfl

theorem hostNumbered_of_error {counter : CounterRef} {make : Nat → Except Refusal SecurityContext}
    {refusal : Refusal} (refused : make (endpoint.counter counter + 1) = .error refusal) :
    hostNumbered counter make endpoint = (.error refusal, endpoint) := by
  rw [hostNumbered, Action.bind_apply, Action.get_apply]
  dsimp only
  rw [refused]
  rfl

/-- The pair is hosted beside its group, which stays as it is. -/
theorem serves_derivePair (quiet : before.Quiet ref context) (id : Bytes) (counter : CounterRef) :
    ∃ after, Serves behaviour ref context (.derivePair id counter) before after := by
  have hosted : derivePair ref id counter before =
      hostNumbered counter (context.derivePair id) before := by
    rw [derivePair_eq, quiet.hosts.2]
  have answered (result : Except Refusal ContextRef) (after : Endpoint Handler Application)
      (derived : derivePair ref id counter before = (result, after)) :
      (Method.derivePair id counter).call behaviour ref before =
        (.pair (result.map after.context), after) := by
    rw [Method.call, Action.bind_apply, derived]
    rfl
  rw [hosted] at answered
  cases made : context.derivePair id (before.counter counter + 1) with
  | error refusal =>
    have unchanged : (Method.derivePair id counter).numbers context before.counters =
        before.counters := by
      rw [Method.numbers, ← Endpoint.counter, made]
    refine ⟨before, ?_, quiet.hosts.2, unchanged.symm, .refl ref before⟩
    rw [answered _ _ (hostNumbered_of_error made), Method.reply, ← Endpoint.counter, made]
    rfl
  | ok pair =>
    have drawn : (Method.derivePair id counter).numbers context before.counters =
        before.counters.set counter.index (before.counter counter + 1) := by
      rw [Method.numbers, ← Endpoint.counter, made]
    have confined := confined_host before ref
      (before.counters.set counter.index (before.counter counter + 1))
      { context := pair, channel := ⟨before.channels.length⟩ }
    refine ⟨_, ?_, ?_, drawn.symm, confined⟩
    · rw [answered _ _ (hostNumbered_of_ok made), Method.reply, ← Endpoint.counter, made]
      exact congrArg (fun made => (Reply.pair (.ok made), _)) (quiet_host before _ pair).hosts.2
    · exact (context_host _ quiet.hosts.1).trans quiet.hosts.2

/-- A quiet context answers every call as by itself. -/
theorem Quiet.serves (quiet : before.Quiet ref context) (behaviour : Behaviour Handler Application)
    (method : Method) : ∃ after, Serves behaviour ref context method before after := by
  cases method with
  | reserve => exact serves_of_perform quiet SecurityContext.reserve .nonce rfl rfl rfl rfl
  | protect associated plaintext =>
    have taken : reserve behaviour ref before =
        (context.reserve.answer, before.setContext ref context.reserve.context) :=
      perform_of_quiet quiet SecurityContext.reserve
    have left := (quiet.hosts.setContext context.reserve.context).2
    refine ⟨before.setContext ref context.reserve.context, ?_, left, rfl,
      confined_setContext before ref _⟩
    show (Endpoint.protect behaviour ref associated plaintext >>= fun answer =>
      pure (Reply.message answer)) before = _
    rw [Action.bind_apply, Endpoint.protect, Action.bind_apply, taken, Method.reply,
      SecurityContext.protect]
    cases context.reserve.answer with
    | error refusal => rfl
    | ok reserved =>
      show (Reply.message (((before.setContext ref context.reserve.context).context
        ref).encryptReserved reserved associated plaintext), _) = _
      rw [left]
      rfl
  | record id sequence =>
    exact serves_of_perform quiet (fun context => context.record id sequence) .recorded
      rfl rfl rfl rfl
  | isReplay id sequence =>
    refine ⟨before, ?_, quiet.hosts.2, rfl, .refl ref before⟩
    show (Reply.replay ((before.context ref).isReplay id sequence), before) = _
    rw [quiet.hosts.2]
    rfl
  | unprotect id partialIv associated ciphertext =>
    exact serves_of_perform quiet
      (fun context => context.unprotect id partialIv associated ciphertext) .plaintext
      rfl rfl rfl rfl
  | addRecipient id key =>
    refine serves_of_change quiet (fun context => context.addRecipient id key)
      (fun answer added => .member (answer.bind fun _ => added.recipient id)) rfl ?_ rfl rfl
    rw [Method.reply, Method.next]
    cases context.addRecipient id key <;> rfl
  | replaceSender id key =>
    exact serves_of_change quiet (fun context => context.replaceSender id key)
      (fun answer _ => .replaced answer) rfl rfl rfl rfl
  | derivePair id counter => exact serves_derivePair quiet id counter

/-! ### Runs of calls -/

/-- Makes some calls at a context, one after another. -/
def callEach (behaviour : Behaviour Handler Application) (ref : ContextRef)
    (methods : List Method) : Action Handler Application (List Reply) :=
  methods.mapM fun method => method.call behaviour ref

/-- Makes calls at several contexts, one after another. -/
def callMixed (behaviour : Behaviour Handler Application) (calls : List (ContextRef × Method)) :
    Action Handler Application (List (ContextRef × Reply)) :=
  calls.mapM fun call => return (call.1, ← call.2.call behaviour call.1)

/-- What belongs to one context, in its order. -/
def own {Value : Type} (ref : ContextRef) (values : List (ContextRef × Value)) : List Value :=
  (values.filter fun value => value.1 = ref).map Prod.snd

theorem own_cons_self {Value : Type} (ref : ContextRef) (value : Value)
    (values : List (ContextRef × Value)) :
    own ref ((ref, value) :: values) = value :: own ref values :=
  congrArg (List.map Prod.snd) (List.filter_cons_of_pos (decide_eq_true rfl))

theorem own_cons_of_ne {Value : Type} (different : other ≠ ref) (value : Value)
    (values : List (ContextRef × Value)) : own ref ((other, value) :: values) = own ref values :=
  congrArg (List.map Prod.snd)
    (List.filter_cons_of_neg fun same => different (of_decide_eq_true same))

/-- Calls at a quiet context are answered as by itself. -/
theorem Quiet.callEach (quiet : endpoint.Quiet ref context)
    (behaviour : Behaviour Handler Application) (methods : List Method) :
    (callEach behaviour ref methods endpoint).1 =
      Method.replies context endpoint.counters methods := by
  induction methods generalizing endpoint context with
  | nil => rfl
  | cons method rest inductionHypothesis =>
    obtain ⟨after, serves⟩ := quiet.serves behaviour method
    have left := quiet.confined serves.confined serves.leaves
    rw [Endpoint.callEach, List.mapM_cons, Action.bind_apply, serves.answers, Method.replies,
      ← serves.counters_eq, ← inductionHypothesis left]
    rfl

/-- Contexts that are all quiet. -/
def AllQuiet (endpoint : Endpoint Handler Application) (calls : List (ContextRef × Method)) :
    Prop :=
  ∀ call ∈ calls, ∃ context, endpoint.Quiet call.1 context

/-- The first of some calls is answered by its own context, and is not noticed by the others but at
the sources of numbers. -/
theorem callMixed_cons {call : ContextRef × Method} {calls : List (ContextRef × Method)}
    (quiet : endpoint.Quiet ref context) (allQuiet : endpoint.AllQuiet (call :: calls)) :
    ∃ after, after.AllQuiet calls ∧
      (call.1 = ref ∧ after.Quiet ref (call.2.next context) ∧
          after.counters = call.2.numbers context endpoint.counters ∧
          own ref (callMixed behaviour (call :: calls) endpoint).1 =
            call.2.reply context endpoint.counters :: own ref (callMixed behaviour calls after).1 ∨
        call.1 ≠ ref ∧ after.Quiet ref context ∧
          (∃ other, after.counters = call.2.numbers other endpoint.counters) ∧
          own ref (callMixed behaviour (call :: calls) endpoint).1 =
            own ref (callMixed behaviour calls after).1) := by
  obtain ⟨called, method⟩ := call
  obtain ⟨first, others⟩ := List.forall_mem_cons.mp allQuiet
  obtain ⟨other, asked⟩ := first
  obtain ⟨after, serves⟩ := asked.serves behaviour method
  have step : (callMixed behaviour ((called, method) :: calls) endpoint).1 =
      (called, method.reply other endpoint.counters) :: (callMixed behaviour calls after).1 := by
    rw [callMixed, List.mapM_cons]
    show (called, (method.call behaviour called endpoint).1) ::
      (callMixed behaviour calls (method.call behaviour called endpoint).2).1 = _
    rw [serves.answers]
  have allLeft : after.AllQuiet calls := by
    intro call member
    obtain ⟨context, quiet⟩ := others call member
    exact ⟨_, quiet.confined serves.confined rfl⟩
  refine ⟨after, allLeft, ?_⟩
  by_cases same : called = ref
  · subst same
    cases asked.hosts.2.symm.trans quiet.hosts.2
    refine Or.inl ⟨rfl, quiet.confined serves.confined serves.leaves, serves.counters_eq, ?_⟩
    rw [step, own_cons_self]
  · have left := quiet.of_ne serves.confined (Ne.symm same)
    refine Or.inr ⟨same, left, ⟨other, serves.counters_eq⟩, ?_⟩
    rw [step, own_cons_of_ne same]

/-- Calls at different contexts draw from different sources. -/
def Apart (calls : List (ContextRef × Method)) : Prop :=
  ∀ first ∈ calls, ∀ second ∈ calls, first.1 ≠ second.1 →
    ∀ counter ∈ first.2.source?, second.2.source? ≠ some counter

theorem mem_own {Value : Type} {value : Value} {values : List (ContextRef × Value)} :
    value ∈ own ref values ↔ (ref, value) ∈ values := by
  simp [own]

/-- Calls at several contexts that draw from different sources are answered at each as by itself. -/
theorem own_callMixed {calls : List (ContextRef × Method)} {counters : List Nat}
    (quiet : endpoint.Quiet ref context) (allQuiet : endpoint.AllQuiet calls) (apart : Apart calls)
    (agree : ∀ method ∈ own ref calls, ∀ counter ∈ method.source?,
      endpoint.counters[counter.index]? = counters[counter.index]?) :
    own ref (callMixed behaviour calls endpoint).1 =
      Method.replies context counters (own ref calls) := by
  induction calls generalizing endpoint context counters with
  | nil => rfl
  | cons call calls inductionHypothesis =>
    have apartRest : Apart calls := fun first inFirst second inSecond =>
      apart first (List.mem_cons_of_mem _ inFirst) second (List.mem_cons_of_mem _ inSecond)
    obtain ⟨after, allLeft,
        ⟨rfl, left, drawn, answers⟩ | ⟨different, left, ⟨other, drawn⟩, answers⟩⟩ :=
      @callMixed_cons _ _ behaviour _ _ _ _ _ quiet allQuiet
    · have mine : own call.1 (call :: calls) = call.2 :: own call.1 calls := own_cons_self ..
      rw [mine] at agree ⊢
      have same := agree call.2 List.mem_cons_self
      rw [answers, Method.replies, Method.reply_congr same,
        inductionHypothesis left allLeft apartRest fun method member counter draws => ?_]
      rw [drawn]
      exact Method.numbers_congr same (agree method (List.mem_cons_of_mem _ member) counter draws)
    · have foreign : own ref (call :: calls) = own ref calls := own_cons_of_ne different ..
      rw [foreign] at agree ⊢
      rw [answers]
      refine inductionHypothesis left allLeft apartRest fun method member counter draws => ?_
      rw [drawn, ← agree method member counter draws]
      refine Method.numbers_of_ne fun source drawsOther same => ?_
      have mine : (ref, method) ∈ call :: calls := List.mem_cons_of_mem _ (mem_own.mp member)
      have shared : source = counter := congrArg CounterRef.mk same
      exact apart call List.mem_cons_self _ mine different source drawsOther (shared ▸ draws)

/-- Whatever calls at several contexts draw from, they are answered at each as by itself, up to the
numbers of the pairs that they derive. -/
theorem unnumbered_own_callMixed {calls : List (ContextRef × Method)} (counters : List Nat)
    (quiet : endpoint.Quiet ref context) (allQuiet : endpoint.AllQuiet calls) :
    (own ref (callMixed behaviour calls endpoint).1).map Reply.unnumbered =
      (Method.replies context counters (own ref calls)).map Reply.unnumbered := by
  induction calls generalizing endpoint context counters with
  | nil => rfl
  | cons call calls inductionHypothesis =>
    obtain ⟨after, allLeft, ⟨rfl, left, -, answers⟩ | ⟨different, left, -, answers⟩⟩ :=
      @callMixed_cons _ _ behaviour _ _ _ _ _ quiet allQuiet
    · have mine : own call.1 (call :: calls) = call.2 :: own call.1 calls := own_cons_self ..
      rw [answers, mine, Method.replies, List.map_cons, List.map_cons,
        call.2.unnumbered_reply context _ counters, inductionHypothesis _ left allLeft]
    · have foreign : own ref (call :: calls) = own ref calls := own_cons_of_ne different ..
      rw [answers, foreign, inductionHypothesis counters left allLeft]

end Endpoint

end Oscore
