/-
This file says what handlers can do to an endpoint. An application has no way to
contexts but their operations: it operates on those that are hosted, and hosts
others that it derives or copies. An action that does nothing else is lawful.

Every action that endpoints offer is lawful, also when the handlers that it runs
act on the endpoint in turn, as long as what they do is lawful itself. So
whatever handlers do between two looks at a context, a list of operations leads
from the first to the second.
-/

import Oscore.Endpoint.Contexts
import Oscore.Proofs.Reachable

namespace Oscore

variable {Handler Application Answer : Type}

namespace Endpoint

variable {endpoint before after later : Endpoint Handler Application} {ref other : ContextRef}

/-! ### Looking at contexts -/

theorem context_eq (endpoint : Endpoint Handler Application) (ref : ContextRef) :
    endpoint.context ref =
      (endpoint.contexts.map Hosted.context)[ref.index]?.getD (default : Hosted).context := by
  rw [context, hosted, List.getD_eq_getElem?_getD, List.getElem?_map, Option.getD_map]

theorem length_setContext (context : SecurityContext) :
    (endpoint.setContext ref context).contexts.length = endpoint.contexts.length :=
  List.length_set

theorem context_setContext (context : SecurityContext) (other : ContextRef) :
    (endpoint.setContext ref context).context other =
      if ref = other ∧ ref.index < endpoint.contexts.length then context
      else endpoint.context other := by
  rw [context_eq, context_eq, setContext, setHosted, List.map_set, List.getElem?_set,
    List.length_map]
  by_cases same : ref = other
  · subst same
    by_cases inside : ref.index < endpoint.contexts.length
    · rw [if_pos rfl, if_pos inside, if_pos ⟨rfl, inside⟩, Option.getD_some]
    · rw [if_pos rfl, if_neg inside, if_neg fun both => inside both.2, List.getElem?_eq_none]
      rw [List.length_map]
      exact Nat.le_of_not_lt inside
  · have indices : ref.index ≠ other.index := fun equal => same (congrArg ContextRef.mk equal)
    rw [if_neg indices, if_neg fun both => same both.1]

theorem channel_setContext (context : SecurityContext) :
    ((endpoint.setContext ref context).hosted ref).channel = (endpoint.hosted ref).channel := by
  rw [setContext, setHosted, hosted, List.getD_eq_getElem?_getD, List.getElem?_set_self', hosted,
    List.getD_eq_getElem?_getD]
  cases endpoint.contexts[ref.index]? <;> rfl

/-- A reference that was never given out stands for a context without content. -/
theorem context_of_dangling (outside : ¬ref.index < endpoint.contexts.length) :
    endpoint.context ref = (default : Hosted).context := by
  rw [context_eq, List.getElem?_eq_none, Option.getD_none]
  rw [List.length_map]
  exact Nat.le_of_not_lt outside

theorem context_host (hosted : Hosted) (inside : ref.index < endpoint.contexts.length) :
    ({ endpoint with contexts := endpoint.contexts ++ [hosted] } :
      Endpoint Handler Application).context ref = endpoint.context ref := by
  rw [← List.length_map Hosted.context] at inside
  rw [context_eq, context_eq, List.map_append, List.getElem?_append_left inside]

/-! ### Sound endpoints and how they evolve -/

/-- An endpoint whose contexts were all derived, copied and operated on. -/
def Sound (endpoint : Endpoint Handler Application) : Prop :=
  ∀ ref : ContextRef, ref.index < endpoint.contexts.length → (endpoint.context ref).Reachable

/-- What an application makes of an endpoint. -/
inductive Evolves (before : Endpoint Handler Application) : Endpoint Handler Application → Prop
  /-- Nothing. -/
  | refl : Evolves before before
  /-- It operates on a context. -/
  | operate {after : Endpoint Handler Application} (evolves : Evolves before after)
      (ref : ContextRef) (operation : Operation) :
      Evolves before (after.setContext ref (operation.next (after.context ref)))
  /-- It hosts a context. -/
  | host {after : Endpoint Handler Application} (evolves : Evolves before after)
      (hosted : Hosted) (reachable : hosted.context.Reachable) :
      Evolves before { after with contexts := after.contexts ++ [hosted] }
  /-- It changes what is not a context. -/
  | beside {after later : Endpoint Handler Application} (evolves : Evolves before after)
      (same : later.contexts.map Hosted.context = after.contexts.map Hosted.context) :
      Evolves before later

theorem Evolves.trans (first : before.Evolves after) (second : after.Evolves later) :
    before.Evolves later := by
  induction second with
  | refl => exact first
  | operate _ ref operation inductionHypothesis => exact inductionHypothesis.operate ref operation
  | host _ hosted reachable inductionHypothesis =>
    exact inductionHypothesis.host hosted reachable
  | beside _ same inductionHypothesis => exact inductionHypothesis.beside same

theorem context_of_same (same : after.contexts.map Hosted.context =
    before.contexts.map Hosted.context) (ref : ContextRef) :
    after.context ref = before.context ref ∧ after.contexts.length = before.contexts.length := by
  have lengths := congrArg List.length same
  rw [List.length_map, List.length_map] at lengths
  exact ⟨by rw [context_eq, same, ← context_eq], lengths⟩

/-- An endpoint keeps its contexts, and operations lead to what they become. -/
theorem Evolves.context (evolves : before.Evolves after)
    (inside : ref.index < before.contexts.length) :
    ref.index < after.contexts.length ∧
      ∃ operations, after.context ref = (before.context ref).after operations := by
  induction evolves with
  | refl => exact ⟨inside, [], rfl⟩
  | @operate after _ other operation inductionHypothesis =>
    obtain ⟨there, operations, equal⟩ := inductionHypothesis
    refine ⟨by rw [length_setContext]; exact there, ?_⟩
    rw [context_setContext]
    by_cases same : other = ref
    · subst same
      refine ⟨operations ++ [operation], ?_⟩
      rw [if_pos ⟨rfl, there⟩, SecurityContext.after, List.foldl_append, equal]
      rfl
    · exact ⟨operations, by rw [if_neg fun both => same both.1]; exact equal⟩
  | host _ hosted reachable inductionHypothesis =>
    obtain ⟨there, operations, equal⟩ := inductionHypothesis
    refine ⟨by rw [List.length_append]; exact Nat.lt_add_right _ there, operations, ?_⟩
    rw [context_host hosted there, equal]
  | beside _ same inductionHypothesis =>
    obtain ⟨there, operations, equal⟩ := inductionHypothesis
    obtain ⟨contexts, lengths⟩ := context_of_same same ref
    exact ⟨by rw [lengths]; exact there, operations, contexts.trans equal⟩

/-- With one context, an endpoint is as sound as that context. -/
theorem sound_of_single {hosted : Hosted} (alone : endpoint.contexts = [hosted])
    (reachable : hosted.context.Reachable) : endpoint.Sound := by
  rintro ⟨index⟩ inside
  rw [alone] at inside
  obtain rfl : index = 0 := Nat.lt_one_iff.mp inside
  rw [context, Endpoint.hosted, alone]
  exact reachable

theorem Sound.evolves (sound : before.Sound) (evolves : before.Evolves after) : after.Sound := by
  induction evolves with
  | refl => exact sound
  | @operate after _ other operation inductionHypothesis =>
    intro ref inside
    rw [length_setContext] at inside
    rw [context_setContext]
    split
    · rename_i both
      exact (inductionHypothesis other both.2).operation operation
    · exact inductionHypothesis ref inside
  | @host after _ hosted reachable inductionHypothesis =>
    intro ref inside
    rw [List.length_append, List.length_singleton, Nat.lt_succ_iff_lt_or_eq] at inside
    rcases inside with old | new
    · rw [context_host hosted old]
      exact inductionHypothesis ref old
    · rw [← List.length_map Hosted.context] at new
      rw [context_eq, List.map_append, new, List.getElem?_append_right (Nat.le_refl _),
        Nat.sub_self]
      exact reachable
  | beside _ same inductionHypothesis =>
    intro ref inside
    obtain ⟨contexts, lengths⟩ := context_of_same same ref
    rw [lengths] at inside
    rw [contexts]
    exact inductionHypothesis ref inside

end Endpoint

/-! ### Lawful actions -/

/-- One action after another starts from the endpoint that the first left. -/
theorem Action.bind_apply {Other : Type} (first : Action Handler Application Answer)
    (next : Answer → Action Handler Application Other)
    (endpoint : Endpoint Handler Application) :
    (first >>= next) endpoint = next (first endpoint).1 (first endpoint).2 :=
  rfl

theorem Action.get_apply (endpoint : Endpoint Handler Application) :
    (get : Action Handler Application (Endpoint Handler Application)) endpoint =
      (endpoint, endpoint) :=
  rfl

/-- An action that only does what an application can do. -/
def Action.Lawful (action : Action Handler Application Answer) : Prop :=
  ∀ endpoint : Endpoint Handler Application, endpoint.Sound → endpoint.Evolves (action endpoint).2

/-- Handlers whose actions are lawful, whatever the event. -/
def Behaviour.Lawful (behaviour : Behaviour Handler Application) : Prop :=
  ∀ handler event, (behaviour handler event).Lawful

namespace Action.Lawful

variable {Element Other Value : Type} {action : Action Handler Application Answer}

theorem pure (answer : Answer) : (Pure.pure answer : Action Handler Application Answer).Lawful :=
  fun _ _ => .refl

theorem bind {next : Answer → Action Handler Application Other} (first : action.Lawful)
    (rest : ∀ answer, (next answer).Lawful) : (action >>= next).Lawful := by
  intro endpoint sound
  have evolves := first endpoint sound
  exact evolves.trans (rest _ _ (sound.evolves evolves))

theorem get : (MonadState.get : Action Handler Application _).Lawful := fun _ _ => .refl

theorem discard (lawful : action.Lawful) :
    (Functor.discard action : Action Handler Application PUnit).Lawful := lawful

theorem foldlM {step : Value → Element → Action Handler Application Value}
    (each : ∀ value element, (step value element).Lawful) (elements : List Element)
    (value : Value) : (elements.foldlM step value).Lawful := by
  induction elements generalizing value with
  | nil => exact pure value
  | cons element rest inductionHypothesis =>
    rw [List.foldlM_cons]
    exact bind (each value element) inductionHypothesis

theorem forM {step : Element → Action Handler Application PUnit}
    (each : ∀ element, (step element).Lawful) (elements : List Element) :
    (elements.forM step).Lawful := by
  induction elements with
  | nil => exact pure PUnit.unit
  | cons element rest inductionHypothesis =>
    exact bind (each element) fun _ => inductionHypothesis

end Action.Lawful

/-- A handler that does one thing, whatever it is told, and passes the event on. -/
def Behaviour.doing (action : Action Handler Application Answer) :
    Behaviour Handler Application := fun _ event => do
  discard action
  return event

theorem Behaviour.doing_lawful {action : Action Handler Application Answer}
    (lawful : action.Lawful) : (doing action).Lawful :=
  fun _ _ => .bind lawful.discard fun _ => .pure _

namespace Endpoint

variable {behaviour : Behaviour Handler Application} {ref : ContextRef}

theorem raise_lawful (lawful : behaviour.Lawful) (channel : ChannelRef) (event : Event) :
    (raise behaviour channel event).Lawful := by
  refine .bind .get fun _ => .foldlM ?_ _ event
  intro event entry
  exact lawful entry.2 event

theorem announce_lawful (lawful : behaviour.Lawful) (ref : ContextRef) (notices : List Notice) :
    (announce behaviour ref notices).Lawful :=
  .forM (fun _ => .bind .get fun _ => .discard (raise_lawful lawful _ _)) notices

/-- What running an operation gives: the answer from the first look at the context, and the
endpoint that the handlers leave. -/
theorem perform_eq (behaviour : Behaviour Handler Application) (ref : ContextRef)
    (operation : SecurityContext → Outcome Answer) (endpoint : Endpoint Handler Application) :
    perform behaviour ref operation endpoint =
      ((operation (endpoint.context ref)).answer,
        (announce behaviour ref (operation (endpoint.context ref)).notices
          (endpoint.setContext ref (operation (endpoint.context ref)).context)).2) :=
  rfl

theorem perform_lawful (lawful : behaviour.Lawful) {run : SecurityContext → Outcome Answer}
    {operation : Operation} (same : ∀ context, (run context).context = operation.next context) :
    (perform behaviour ref run).Lawful := by
  intro endpoint sound
  rw [perform_eq, same]
  have evolves := (@Evolves.refl _ _ endpoint).operate ref operation
  exact evolves.trans (announce_lawful lawful ref _ _ (sound.evolves evolves))

theorem reserve_lawful (lawful : behaviour.Lawful) : (reserve behaviour ref).Lawful :=
  perform_lawful lawful fun _ => (rfl : _ = Operation.reserve.next _)

theorem record_lawful (lawful : behaviour.Lawful) (id : Bytes) (sequence : Nat) :
    (record behaviour ref id sequence).Lawful :=
  perform_lawful lawful fun _ => (rfl : _ = (Operation.record id sequence).next _)

theorem unprotect_lawful (lawful : behaviour.Lawful)
    (id partialIv associated ciphertext : Bytes) :
    (unprotect behaviour ref id partialIv associated ciphertext).Lawful :=
  perform_lawful lawful
    fun _ => (rfl : _ = (Operation.unprotect id partialIv associated ciphertext).next _)

theorem protect_lawful (lawful : behaviour.Lawful) (associated plaintext : Bytes) :
    (protect behaviour ref associated plaintext).Lawful := by
  refine .bind (reserve_lawful lawful) ?_
  intro answer
  cases answer with
  | error refusal => exact .pure _
  | ok reserved => exact .bind .get fun _ => .pure _

theorem change_eq (ref : ContextRef) (make : SecurityContext → Except Refusal SecurityContext)
    (endpoint : Endpoint Handler Application) :
    change ref make endpoint =
      match make (endpoint.context ref) with
      | .error refusal => (.error refusal, endpoint)
      | .ok context => (.ok (), endpoint.setContext ref context) := by
  rw [change, Action.bind_apply, Action.get_apply]
  dsimp only
  cases make (endpoint.context ref) <;> rfl

theorem change_lawful {make : SecurityContext → Except Refusal SecurityContext}
    {operation : Operation}
    (same : ∀ {context later}, make context = .ok later → operation.next context = later) :
    (change ref make : Action Handler Application _).Lawful := by
  intro endpoint _
  rw [change_eq]
  split
  · exact .refl
  · rename_i later made
    rw [← same made]
    exact (@Evolves.refl _ _ endpoint).operate ref operation

theorem addRecipient_lawful (id : Bytes) (key : SigningKey) :
    (addRecipient ref id key : Action Handler Application _).Lawful :=
  change_lawful Operation.next_addRecipient

theorem replaceSender_lawful (id : Bytes) (key : SigningKey) :
    (replaceSender ref id key : Action Handler Application _).Lawful :=
  change_lawful Operation.next_replaceSender

theorem host_lawful {context : SecurityContext} (reachable : context.Reachable) :
    (host context : Action Handler Application _).Lawful := by
  intro endpoint _
  have channelled : endpoint.Evolves (makeChannel endpoint).2 := .beside .refl rfl
  exact channelled.host { context, channel := (makeChannel endpoint).1 } reachable

/-- Hosts a context that takes the next number of a source, if it can be made. -/
def hostNumbered (counter : CounterRef) (make : Nat → Except Refusal SecurityContext) :
    Action Handler Application (Except Refusal ContextRef) := do
  let number := (← get).counter counter + 1
  match make number with
  | .error refusal => return .error refusal
  | .ok context =>
    modify (setCounter counter number)
    return .ok (← host context)

/-- A number that is drawn when nothing can fail any more is drawn for the context that is made. -/
theorem draw_eq_hostNumbered {prepared : Except Refusal (Nat → SecurityContext)}
    {make : Nat → Except Refusal SecurityContext}
    (assembles : ∀ number, make number = do return (← prepared) number) (counter : CounterRef) :
    (do
      match prepared with
      | .error refusal => return .error refusal
      | .ok assemble =>
        let number ← nextNumber counter
        return .ok (← host (assemble number)) :
      Action Handler Application (Except Refusal ContextRef)) = hostNumbered counter make := by
  funext endpoint
  rw [hostNumbered, Action.bind_apply, Action.get_apply]
  dsimp only
  rw [assembles]
  cases prepared <;> rfl

theorem derive_eq (counter : CounterRef) (keying : Keying) (sender recipient : Bytes) :
    (derive counter keying sender recipient : Action Handler Application _) =
      hostNumbered counter (SecurityContext.derive keying sender recipient) :=
  draw_eq_hostNumbered (fun _ => rfl) counter

theorem deriveGroup_eq (counter : CounterRef) (parameters : GroupParameters) :
    (deriveGroup counter parameters : Action Handler Application _) =
      hostNumbered counter (SecurityContext.deriveGroup parameters) :=
  draw_eq_hostNumbered (fun _ => rfl) counter

theorem deriveFromParameters_eq (counter : CounterRef) (parameters : InputParameters)
    (role : EndpointRole) (nonces : Option (Bytes × Bytes)) (limits : Limits) :
    (deriveFromParameters counter parameters role nonces limits : Action Handler Application _) =
      hostNumbered counter (parameters.derive role nonces limits) :=
  derive_eq counter _ _ _

theorem derivePair_eq (ref : ContextRef) (id : Bytes) (counter : CounterRef)
    (endpoint : Endpoint Handler Application) :
    derivePair ref id counter endpoint =
      hostNumbered counter ((endpoint.context ref).derivePair id) endpoint :=
  congrFun (draw_eq_hostNumbered (fun _ => rfl) counter) endpoint

theorem hostNumbered_lawful {counter : CounterRef} {make : Nat → Except Refusal SecurityContext}
    (reaches : ∀ {number context}, make number = .ok context → context.Reachable) :
    (hostNumbered counter make : Action Handler Application _).Lawful := by
  refine .bind .get fun endpoint => ?_
  dsimp only
  split
  · exact .pure _
  · rename_i context made
    refine .bind ?_ fun _ => .bind (host_lawful (reaches made)) fun _ => .pure _
    exact fun _ _ => .beside .refl rfl

theorem derive_lawful (counter : CounterRef) (keying : Keying) (sender recipient : Bytes) :
    (derive counter keying sender recipient : Action Handler Application _).Lawful := by
  rw [derive_eq]
  exact hostNumbered_lawful .derive

theorem deriveGroup_lawful (counter : CounterRef) (parameters : GroupParameters) :
    (deriveGroup counter parameters : Action Handler Application _).Lawful := by
  rw [deriveGroup_eq]
  exact hostNumbered_lawful .deriveGroup

theorem deriveFromParameters_lawful (counter : CounterRef) (parameters : InputParameters)
    (role : EndpointRole) (nonces : Option (Bytes × Bytes)) (limits : Limits) :
    (deriveFromParameters counter parameters role nonces limits :
      Action Handler Application _).Lawful := by
  rw [deriveFromParameters_eq]
  exact hostNumbered_lawful .deriveFromParameters

theorem derivePair_lawful (id : Bytes) (counter : CounterRef) :
    (derivePair ref id counter : Action Handler Application _).Lawful := by
  intro endpoint sound
  rw [derivePair_eq]
  refine hostNumbered_lawful ?_ endpoint sound
  intro number context derived
  by_cases inside : ref.index < endpoint.contexts.length
  · exact .derivePair (sound ref inside) derived
  · rw [context_of_dangling inside] at derived
    cases derived

theorem duplicate_evolves {endpoint : Endpoint Handler Application} (sound : endpoint.Sound)
    (inside : ref.index < endpoint.contexts.length) :
    endpoint.Evolves (duplicate ref endpoint).2 :=
  host_lawful (.duplicate (sound ref inside)) endpoint sound

theorem subscribe_lawful (channel : ChannelRef) (handler : Handler) :
    (subscribe channel handler : Action Handler Application _).Lawful :=
  fun _ _ => .beside .refl rfl

theorem unsubscribe_lawful (channel : ChannelRef) (number : Nat) :
    (unsubscribe channel number : Action Handler Application _).Lawful :=
  fun _ _ => .beside .refl rfl

end Endpoint

end Oscore
