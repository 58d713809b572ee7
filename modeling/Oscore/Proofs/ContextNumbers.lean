/-
This file says which numbers contexts get. A source gives out its next number
when the context that takes it has been made, and making it is the last that can
fail. So a call that is refused leaves every source and every registry as it was,
and the calls that succeed get the numbers one after another, without a gap. It
does not matter what is done between them, as long as it spares the source.
-/

import Oscore.Proofs.Registration

namespace Oscore

variable {Handler Application : Type}

/-! ### Numbers of contexts -/

namespace SecurityContext

variable {context : SecurityContext} {number : Nat}

theorem number_of_derive {keying : Keying} {sender recipient : Bytes}
    (derived : derive keying sender recipient number = .ok context) : context.number = number := by
  obtain ⟨_, -, -, -, rfl⟩ := derive_eq_ok.mp derived
  rfl

theorem number_of_deriveGroup {parameters : GroupParameters}
    (derived : deriveGroup parameters number = .ok context) : context.number = number := by
  obtain ⟨_, _, _, -, rfl⟩ := deriveGroup_eq_ok_context.mp derived
  rfl

theorem number_of_deriveFromParameters {parameters : InputParameters} {role : EndpointRole}
    {nonces : Option (Bytes × Bytes)} {limits : Limits}
    (derived : parameters.derive role nonces limits number = .ok context) :
    context.number = number := by
  cases role with
  | client => exact number_of_derive derived
  | server => exact number_of_derive derived

theorem number_of_derivePair {group : SecurityContext} {id : Bytes}
    (derived : group.derivePair id number = .ok context) : context.number = number := by
  obtain ⟨_, prepared, assembled⟩ := bind_eq_ok.mp derived
  cases assembled
  obtain ⟨member, -, paired⟩ := bind_eq_ok.mp prepared
  split at paired
  · obtain ⟨_, -, made⟩ := bind_eq_ok.mp paired
    obtain ⟨_, -, made⟩ := bind_eq_ok.mp made
    obtain ⟨_, -, made⟩ := bind_eq_ok.mp made
    cases made
    rfl
  · cases paired

end SecurityContext

/-! ### What becomes of a source -/

namespace Endpoint

variable {before after later endpoint : Endpoint Handler Application}
  {counter other : CounterRef} {made : ContextRef}

/-- An endpoint that has all contexts of another under their numbers, and maybe more. -/
def KeepsNumbers (before after : Endpoint Handler Application) : Prop :=
  ∀ ref : ContextRef, ref.index < before.contexts.length →
    ref.index < after.contexts.length ∧ (after.context ref).number = (before.context ref).number

/-- What leaves a source as it is, and the numbers of the contexts that are there. -/
structure Spares (counter : CounterRef) (before after : Endpoint Handler Application) : Prop where
  there : counter.index < before.counters.length → counter.index < after.counters.length
  counter_eq : after.counter counter = before.counter counter
  keeps : before.KeepsNumbers after

/-- What hosts a context under the next number of a source. -/
structure Numbers (counter : CounterRef) (before : Endpoint Handler Application)
    (made : ContextRef) (after : Endpoint Handler Application) : Prop where
  counters_eq : after.counters = before.counters.set counter.index (before.counter counter + 1)
  hosted : made.index < after.contexts.length
  number_eq : (after.context made).number = before.counter counter + 1
  keeps : before.KeepsNumbers after

theorem HostsNext.numbers {context : SecurityContext}
    (hosts : HostsNext counter context before after)
    (number : context.number = before.counter counter + 1) :
    Numbers counter before ⟨before.contexts.length⟩ after := by
  obtain ⟨hosted, same, equal⟩ := hosts.contexts_eq
  have longer := hosts.length_contexts
  refine ⟨hosts.counters_eq, ?_, ?_, ?_⟩
  · rw [longer]
    exact Nat.lt_succ_self _
  · rw [context_eq, equal, List.map_append, ← List.length_map Hosted.context,
      List.getElem?_append_right (Nat.le_refl _), Nat.sub_self]
    exact (congrArg SecurityContext.number same).trans number
  · intro ref inside
    refine ⟨by omega, ?_⟩
    rw [context_eq, equal, List.map_append,
      List.getElem?_append_left (by rw [List.length_map]; exact inside), ← context_eq]

theorem Numbers.counter_eq (numbers : Numbers counter before made after)
    (there : counter.index < before.counters.length) :
    after.counter counter = before.counter counter + 1 := by
  rw [Endpoint.counter, numbers.counters_eq, List.getD_eq_getElem?_getD,
    List.getElem?_set_self there, Option.getD_some]

/-- Drawing from one source spares the others. -/
theorem Numbers.spares (numbers : Numbers counter before made after) (different : counter ≠ other) :
    Spares other before after := by
  have apart : counter.index ≠ other.index := fun same => different (congrArg CounterRef.mk same)
  refine ⟨?_, ?_, numbers.keeps⟩
  · rw [numbers.counters_eq, List.length_set]
    exact id
  · rw [Endpoint.counter, numbers.counters_eq, List.getD_eq_getElem?_getD,
      List.getElem?_set_ne apart, ← List.getD_eq_getElem?_getD, ← Endpoint.counter]

theorem Spares.refl (counter : CounterRef) (endpoint : Endpoint Handler Application) :
    Spares counter endpoint endpoint :=
  ⟨id, rfl, fun _ inside => ⟨inside, rfl⟩⟩

/-- An operation on a context spares all sources. -/
theorem spares_operation (endpoint : Endpoint Handler Application) (ref : ContextRef)
    (operation : Operation) :
    Spares counter endpoint (endpoint.setContext ref (operation.next (endpoint.context ref))) := by
  refine ⟨id, rfl, ?_⟩
  intro looked inside
  refine ⟨by rw [length_setContext]; exact inside, ?_⟩
  rw [context_setContext]
  split
  · rename_i both
    rw [(operation.changes_next _).identity_eq.1, both.1]
  · rfl

/-- A source gives its next number to the context that is made, or nothing happens. -/
theorem hostNumbered_numbers {make : Nat → Except Refusal SecurityContext}
    (numbered : ∀ {number context}, make number = .ok context → context.number = number)
    (counter : CounterRef) (endpoint : Endpoint Handler Application) :
    (∃ refusal, hostNumbered counter make endpoint = (.error refusal, endpoint)) ∨
      ∃ made later, hostNumbered counter make endpoint = (.ok made, later) ∧
        Numbers counter endpoint made later := by
  rcases hostNumbered_cases counter make endpoint with
    refused | ⟨context, later, derived, answer, hosts⟩
  · exact Or.inl refused
  · exact Or.inr ⟨_, later, answer, hosts.numbers (numbered derived)⟩

/-- Registering what was made makes no difference to the sources. -/
theorem registerNumbered_numbers {make : Nat → Except Refusal SecurityContext}
    (numbered : ∀ {number context}, make number = .ok context → context.number = number)
    (ref : RegistryRef) (endpoint : Endpoint Handler Application) :
    (∃ refusal, registerNumbered ref make endpoint = (.error refusal, endpoint)) ∨
      ∃ made later, registerNumbered ref make endpoint = (.ok made, later) ∧
        Numbers (endpoint.registry ref).counter endpoint made later := by
  rw [registerNumbered, Action.bind_apply, Action.get_apply, Action.bind_apply]
  rcases hostNumbered_numbers numbered (endpoint.registry ref).counter endpoint with
    ⟨refusal, refused⟩ | ⟨made, later, answer, numbers⟩
  · rw [refused]
    exact Or.inl ⟨refusal, rfl⟩
  · rw [answer]
    refine Or.inr ⟨made, (register ref made later).2, rfl, ?_⟩
    exact ⟨numbers.counters_eq, numbers.hosted, numbers.number_eq, numbers.keeps⟩

end Endpoint

/-! ### Calls that draw from a source -/

/-- A call that takes a number for the context that it derives. -/
inductive Draw
  /-- Derives the context of a sender and one recipient. -/
  | derive (keying : Keying) (sender recipient : Bytes)
  /-- Derives the context of a group. -/
  | deriveGroup (parameters : GroupParameters)
  /-- Derives the context between the sender of a group context and one member. -/
  | derivePair (group : ContextRef) (id : Bytes)
  /-- Derives the context of a client or a server. -/
  | deriveFromParameters (parameters : InputParameters) (role : EndpointRole)
      (nonces : Option (Bytes × Bytes)) (limits : Limits)
  /-- Derives the context of a sender and one recipient, and registers it. -/
  | deriveInto (ref : RegistryRef) (keying : Keying) (sender recipient : Bytes)
  /-- Derives the context of a group, and registers it. -/
  | deriveGroupInto (ref : RegistryRef) (parameters : GroupParameters)

namespace Draw

variable {endpoint : Endpoint Handler Application} {counter other : CounterRef}

/-- Makes the call, with a source for the calls that do not bring their own. -/
def act (counter : CounterRef) : Draw → Action Handler Application (Except Refusal ContextRef)
  | derive keying sender recipient => Endpoint.derive counter keying sender recipient
  | deriveGroup parameters => Endpoint.deriveGroup counter parameters
  | derivePair group id => Endpoint.derivePair group id counter
  | deriveFromParameters parameters role nonces limits =>
    Endpoint.deriveFromParameters counter parameters role nonces limits
  | deriveInto ref keying sender recipient => Endpoint.deriveInto ref keying sender recipient
  | deriveGroupInto ref parameters => Endpoint.deriveGroupInto ref parameters

/-- The source that the call draws from. A registry has its own. -/
def source (counter : CounterRef) (endpoint : Endpoint Handler Application) : Draw → CounterRef
  | deriveInto ref _ _ _ | deriveGroupInto ref _ => (endpoint.registry ref).counter
  | _ => counter

/-- A call hosts a context under the next number of its source, or it is refused and nothing
happens. -/
theorem act_cases (counter : CounterRef) (endpoint : Endpoint Handler Application) (call : Draw) :
    (∃ refusal, call.act counter endpoint = (.error refusal, endpoint)) ∨
      ∃ made later, call.act counter endpoint = (.ok made, later) ∧
        Endpoint.Numbers (call.source counter endpoint) endpoint made later := by
  cases call with
  | derive keying sender recipient =>
    rw [act, Endpoint.derive_eq]
    exact Endpoint.hostNumbered_numbers SecurityContext.number_of_derive counter endpoint
  | deriveGroup parameters =>
    rw [act, Endpoint.deriveGroup_eq]
    exact Endpoint.hostNumbered_numbers SecurityContext.number_of_deriveGroup counter endpoint
  | derivePair group id =>
    rw [act, Endpoint.derivePair_eq]
    exact Endpoint.hostNumbered_numbers SecurityContext.number_of_derivePair counter endpoint
  | deriveFromParameters parameters role nonces limits =>
    rw [act, Endpoint.deriveFromParameters_eq]
    exact Endpoint.hostNumbered_numbers SecurityContext.number_of_deriveFromParameters counter
      endpoint
  | deriveInto ref keying sender recipient =>
    rw [act, Endpoint.deriveInto_eq]
    exact Endpoint.registerNumbered_numbers SecurityContext.number_of_derive ref endpoint
  | deriveGroupInto ref parameters =>
    rw [act, Endpoint.deriveGroupInto_eq]
    exact Endpoint.registerNumbered_numbers SecurityContext.number_of_deriveGroup ref endpoint

theorem act_of_error {call : Draw} {refusal : Refusal}
    (refused : (call.act counter endpoint).1 = .error refusal) :
    (call.act counter endpoint).2 = endpoint := by
  rcases call.act_cases counter endpoint with ⟨_, same⟩ | ⟨_, _, answer, -⟩
  · rw [same]
  · rw [answer] at refused
    cases refused

/-- A call that draws from another source may stand between those that draw from one. -/
theorem act_spares {call : Draw} (different : call.source counter endpoint ≠ other) :
    Endpoint.Spares other endpoint (call.act counter endpoint).2 := by
  rcases call.act_cases counter endpoint with ⟨_, same⟩ | ⟨_, _, answer, numbers⟩
  · rw [same]
    exact .refl other endpoint
  · rw [answer]
    exact numbers.spares different

end Draw

/-! ### Runs of calls -/

namespace Endpoint

variable {start before after last : Endpoint Handler Application} {counter : CounterRef}
  {made : List ContextRef} {context : ContextRef}

/-- A run of calls that draw from one source, with anything between them that spares it: the
contexts that the calls made so far, in their order, and the endpoint that is left. -/
inductive Draws (counter : CounterRef) (start : Endpoint Handler Application) :
    List ContextRef → Endpoint Handler Application → Prop
  /-- Nothing was called. -/
  | nothing : Draws counter start [] start
  /-- A call made a context. -/
  | succeeds {made : List ContextRef} {before after : Endpoint Handler Application} {call : Draw}
      {context : ContextRef} (draws : Draws counter start made before)
      (source : call.source counter before = counter)
      (answer : call.act counter before = (.ok context, after)) :
      Draws counter start (made ++ [context]) after
  /-- A call was refused. -/
  | fails {made : List ContextRef} {before after : Endpoint Handler Application} {call : Draw}
      {refusal : Refusal} (draws : Draws counter start made before)
      (answer : call.act counter before = (.error refusal, after)) :
      Draws counter start made after
  /-- Something else happened. -/
  | between {made : List ContextRef} {before after : Endpoint Handler Application}
      (draws : Draws counter start made before) (spares : Spares counter before after) :
      Draws counter start made after

/-- What holds between the calls of a run. -/
structure Numbered (counter : CounterRef) (start : Endpoint Handler Application)
    (made : List ContextRef) (last : Endpoint Handler Application) : Prop where
  there : counter.index < last.counters.length
  counter_eq : last.counter counter = start.counter counter + made.length
  hosted : ∀ context ∈ made, context.index < last.contexts.length
  numbers_eq : (made.map fun context => (last.context context).number) =
    List.range' (start.counter counter + 1) made.length

/-- The contexts that were made keep their numbers. -/
theorem Numbered.numbers_of_keeps (numbered : Numbered counter start made before)
    (keeps : before.KeepsNumbers after) :
    (made.map fun context => (after.context context).number) =
      List.range' (start.counter counter + 1) made.length := by
  rw [← numbered.numbers_eq]
  exact List.map_congr_left fun context member => (keeps context (numbered.hosted context member)).2

theorem Numbered.spares (numbered : Numbered counter start made before)
    (spares : Spares counter before after) : Numbered counter start made after where
  there := spares.there numbered.there
  counter_eq := spares.counter_eq.trans numbered.counter_eq
  hosted := fun context member => (spares.keeps context (numbered.hosted context member)).1
  numbers_eq := numbered.numbers_of_keeps spares.keeps

theorem Numbered.numbers (numbered : Numbered counter start made before)
    (numbers : Numbers counter before context after) :
    Numbered counter start (made ++ [context]) after where
  there := by
    rw [numbers.counters_eq, List.length_set]
    exact numbered.there
  counter_eq := by
    rw [numbers.counter_eq numbered.there, numbered.counter_eq, List.length_append,
      List.length_singleton, Nat.add_assoc]
  hosted := by
    intro other member
    rcases List.mem_append.mp member with old | new
    · exact (numbers.keeps other (numbered.hosted other old)).1
    · rw [List.mem_singleton.mp new]
      exact numbers.hosted
  numbers_eq := by
    rw [List.map_append, numbered.numbers_of_keeps numbers.keeps, List.map_singleton,
      numbers.number_eq, numbered.counter_eq, List.length_append, List.length_singleton,
      List.range'_1_concat, Nat.add_right_comm]

theorem Draws.numbered (draws : Draws counter start made last)
    (there : counter.index < start.counters.length) : Numbered counter start made last := by
  induction draws with
  | nothing => exact ⟨there, rfl, (fun _ member => nomatch member), rfl⟩
  | @succeeds made before after call context _ source answer inductionHypothesis =>
    rcases call.act_cases counter before with ⟨_, refused⟩ | ⟨_, _, made, numbers⟩
    · cases answer.symm.trans refused
    · cases answer.symm.trans made
      rw [source] at numbers
      exact inductionHypothesis.numbers numbers
  | @fails made before after call refusal _ answer inductionHypothesis =>
    have same := Draw.act_of_error (congrArg Prod.fst answer)
    rw [answer] at same
    cases same
    exact inductionHypothesis
  | between _ spares inductionHypothesis => exact inductionHypothesis.spares spares

/-- However calls draw from a source, and whatever fails among them, the contexts that were made
have the numbers behind the last one that the source had given out, in their order and without a
gap, and the source is as far on as there are such contexts. A call that is refused leaves the
whole endpoint as it was, at any point of a run. -/
theorem Draws.numbers_consecutive (draws : Draws counter start made last)
    (there : counter.index < start.counters.length) :
    last.counter counter = start.counter counter + made.length ∧
      (made.map fun context => (last.context context).number) =
        List.range' (start.counter counter + 1) made.length ∧
      ∀ (call : Draw) refusal, (call.act counter last).1 = .error refusal →
        (call.act counter last).2 = last := by
  have numbered := draws.numbered there
  exact ⟨numbered.counter_eq, numbered.numbers_eq, fun _ _ => Draw.act_of_error⟩

/-- A context is derived into a registry, one with too long an identifier is refused, the first
hands out a nonce and has nobody to make a pair with, and another is derived: the two that were
made have the numbers 1 and 2. -/
theorem Draws.numbers_consecutive_refused :
    let keying : Keying := { secret := [1] }
    let start : Endpoint Unit Unit := {
      counters := [0], channels := [{}], registries := [{ counter := ⟨0⟩, channel := ⟨0⟩ }]
      application := () }
    let long := Draw.deriveInto ⟨0⟩ keying (List.replicate 8 0) [1]
    let pair := Draw.derivePair ⟨0⟩ [2]
    ∃ stored between last, Draws ⟨0⟩ start [⟨0⟩] stored ∧
      (long.act ⟨0⟩ stored).1 = .error (.identifierTooLong 8 7) ∧
      (long.act ⟨0⟩ stored).2 = stored ∧
      between = stored.setContext ⟨0⟩ (Operation.reserve.next (stored.context ⟨0⟩)) ∧
      (pair.act ⟨0⟩ between).1 = .error (.unknownRecipient [2]) ∧
      (pair.act ⟨0⟩ between).2 = between ∧
      Draws ⟨0⟩ start [⟨0⟩, ⟨1⟩] last ∧ last.counter ⟨0⟩ = 2 ∧
      ([⟨0⟩, ⟨1⟩].map fun context => (last.context context).number) = [1, 2] := by
  intro keying start long pair
  let stored := ((Draw.deriveInto ⟨0⟩ keying [] [1]).act ⟨0⟩ start).2
  let between := stored.setContext ⟨0⟩ (Operation.reserve.next (stored.context ⟨0⟩))
  let last := ((Draw.derive keying [1] []).act ⟨0⟩ between).2
  have there : (⟨0⟩ : CounterRef).index < start.counters.length := Nat.zero_lt_one
  have first : (Draw.deriveInto ⟨0⟩ keying [] [1]).act ⟨0⟩ start = (.ok ⟨0⟩, stored) :=
    Prod.ext (by decide +kernel) rfl
  have one : Draws ⟨0⟩ start [⟨0⟩] stored := .succeeds .nothing rfl first
  have longRefused : (long.act ⟨0⟩ stored).1 = .error (.identifierTooLong 8 7) := by
    decide +kernel
  have meanwhile : Draws ⟨0⟩ start [⟨0⟩] between :=
    one.between (spares_operation stored ⟨0⟩ .reserve)
  have pairRefused : (pair.act ⟨0⟩ between).1 = .error (.unknownRecipient [2]) := by
    decide +kernel
  have second : (Draw.derive keying [1] []).act ⟨0⟩ between = (.ok ⟨1⟩, last) :=
    Prod.ext (by decide +kernel) rfl
  have two : Draws ⟨0⟩ start [⟨0⟩, ⟨1⟩] last := .succeeds meanwhile rfl second
  obtain ⟨-, -, unchanged⟩ := one.numbers_consecutive there
  obtain ⟨-, -, stillUnchanged⟩ := meanwhile.numbers_consecutive there
  obtain ⟨counter, numbers, -⟩ := two.numbers_consecutive there
  exact ⟨stored, between, last, one, longRefused, unchanged long _ longRefused, rfl, pairRefused,
    stillUnchanged pair _ pairRefused, two, counter, numbers⟩

end Endpoint

end Oscore
