/-
This file says when a registry holds a context twice. Deriving into a registry
registers a new instance, and handlers are assumed to register nothing that is
registered already. What is left is a lookup that misses: it registers the
context that a handler supplied, unless it is among those that the registry held
for the asked group before the handlers ran. A context of another group, or one
that the handlers registered themselves, is then registered once more. This is
the only way for a registry to come to hold a context twice.
-/

import Mathlib.Data.List.Nodup
import Oscore.Endpoint.Resolution
import Oscore.Proofs.LawfulActions

namespace Oscore

variable {Handler Application : Type}

namespace Endpoint

variable {behaviour : Behaviour Handler Application} {ref : RegistryRef}
  {before middle after endpoint : Endpoint Handler Application} {context : ContextRef}

/-! ### Registries that grow -/

/-- The contexts of a registry, in the order of their registration. -/
def registered (endpoint : Endpoint Handler Application) (ref : RegistryRef) : List ContextRef :=
  (endpoint.registry ref).contexts

/-- A registry that is there and whose contexts are hosted. -/
structure Orderly (endpoint : Endpoint Handler Application) (ref : RegistryRef) : Prop where
  there : ref.index < endpoint.registries.length
  hosted : ∀ context ∈ endpoint.registered ref, context.index < endpoint.contexts.length

/-- A registry that got some contexts, each hosted, each once and none that it had. -/
structure Grows (before : Endpoint Handler Application) (ref : RegistryRef)
    (after : Endpoint Handler Application) : Prop where
  registries_le : before.registries.length ≤ after.registries.length
  contexts_le : before.contexts.length ≤ after.contexts.length
  appends : ∃ added, after.registered ref = before.registered ref ++ added ∧ added.Nodup ∧
    ∀ context ∈ added, context ∉ before.registered ref ∧ context.index < after.contexts.length

theorem Grows.of_registered (registries : before.registries.length ≤ after.registries.length)
    (contexts : before.contexts.length ≤ after.contexts.length)
    (same : after.registered ref = before.registered ref) : before.Grows ref after :=
  ⟨registries, contexts, [], by rw [same, List.append_nil], List.nodup_nil,
    fun _ member => nomatch member⟩

theorem Grows.refl (endpoint : Endpoint Handler Application) : endpoint.Grows ref endpoint :=
  .of_registered (Nat.le_refl _) (Nat.le_refl _) rfl

theorem Grows.trans (first : before.Grows ref middle) (second : middle.Grows ref after) :
    before.Grows ref after := by
  obtain ⟨early, earlyEq, earlyDistinct, earlyFresh⟩ := first.appends
  obtain ⟨late, lateEq, lateDistinct, lateFresh⟩ := second.appends
  refine ⟨Nat.le_trans first.registries_le second.registries_le,
    Nat.le_trans first.contexts_le second.contexts_le, early ++ late, ?_, ?_, ?_⟩
  · rw [lateEq, earlyEq, List.append_assoc]
  · refine List.nodup_append.mpr ⟨earlyDistinct, lateDistinct, ?_⟩
    intro one oneEarly other otherLate same
    subst same
    rw [earlyEq] at lateFresh
    exact (lateFresh one otherLate).1 (List.mem_append_right _ oneEarly)
  · intro context member
    rcases List.mem_append.mp member with inEarly | inLate
    · obtain ⟨fresh, hosted⟩ := earlyFresh context inEarly
      exact ⟨fresh, Nat.lt_of_lt_of_le hosted second.contexts_le⟩
    · obtain ⟨fresh, hosted⟩ := lateFresh context inLate
      rw [earlyEq] at fresh
      exact ⟨fun old => fresh (List.mem_append_left _ old), hosted⟩

theorem Grows.mem (grows : before.Grows ref after) (member : context ∈ before.registered ref) :
    context ∈ after.registered ref := by
  obtain ⟨added, equal, -, -⟩ := grows.appends
  rw [equal]
  exact List.mem_append_left _ member

/-- A registry that grows holds a context twice exactly when it did before. -/
theorem Grows.nodup_iff (grows : before.Grows ref after) :
    (after.registered ref).Nodup ↔ (before.registered ref).Nodup := by
  obtain ⟨added, equal, distinct, fresh⟩ := grows.appends
  rw [equal, List.nodup_append]
  constructor
  · rintro ⟨old, -⟩
    exact old
  · intro old
    refine ⟨old, distinct, ?_⟩
    rintro one oneOld _ new rfl
    exact (fresh one new).1 oneOld

/-- Growing brings in nothing more of what is there. -/
theorem Grows.count_eq (grows : before.Grows ref after)
    (member : context ∈ before.registered ref) :
    (after.registered ref).count context = (before.registered ref).count context := by
  obtain ⟨added, equal, -, fresh⟩ := grows.appends
  have absent : context ∉ added := fun new => (fresh context new).1 member
  rw [equal, List.count_append, List.count_eq_zero_of_not_mem absent, Nat.add_zero]

theorem Orderly.grows (orderly : before.Orderly ref) (grows : before.Grows ref after) :
    after.Orderly ref := by
  refine ⟨Nat.lt_of_lt_of_le orderly.there grows.registries_le, ?_⟩
  obtain ⟨added, equal, -, fresh⟩ := grows.appends
  intro context member
  rw [equal] at member
  rcases List.mem_append.mp member with old | new
  · exact Nat.lt_of_lt_of_le (orderly.hosted context old) grows.contexts_le
  · exact (fresh context new).2

/-! ### Registering -/

theorem registered_register (there : ref.index < endpoint.registries.length)
    (context : ContextRef) :
    (register ref context endpoint).2.registered ref = endpoint.registered ref ++ [context] := by
  show ((endpoint.setRegistry ref _).registry ref).contexts = _
  rw [registry, setRegistry, List.getD_eq_getElem?_getD, List.getElem?_set_self there,
    Option.getD_some]
  rfl

theorem orderly_register (orderly : endpoint.Orderly ref)
    (hosted : context.index < endpoint.contexts.length) :
    (register ref context endpoint).2.Orderly ref := by
  refine ⟨Nat.lt_of_lt_of_eq orderly.there List.length_set.symm, ?_⟩
  intro other member
  rw [registered_register orderly.there, List.mem_append, List.mem_singleton] at member
  rcases member with old | rfl
  · exact orderly.hosted other old
  · exact hosted

/-- A context that is registered is there twice exactly when it was there, or another was there
twice. -/
theorem nodup_register (orderly : endpoint.Orderly ref) (context : ContextRef) :
    ((register ref context endpoint).2.registered ref).Nodup ↔
      (endpoint.registered ref).Nodup ∧ context ∉ endpoint.registered ref := by
  rw [registered_register orderly.there, List.nodup_append]
  simp only [List.nodup_singleton, List.mem_singleton, forall_eq, true_and]
  refine and_congr_right fun _ => ?_
  constructor
  · exact fun different member => different context member rfl
  · rintro absent other member rfl
    exact absent member

theorem grows_register (orderly : endpoint.Orderly ref)
    (fresh : context ∉ endpoint.registered ref)
    (hosted : context.index < endpoint.contexts.length) :
    endpoint.Grows ref (register ref context endpoint).2 := by
  refine ⟨Nat.le_of_eq List.length_set.symm, Nat.le_refl _, [context],
    registered_register orderly.there context, List.nodup_singleton _, ?_⟩
  intro other member
  rw [List.mem_singleton.mp member]
  exact ⟨fresh, hosted⟩

/-- An endpoint that hosts one context more, under the next number of a source. -/
structure HostsNext (counter : CounterRef) (context : SecurityContext)
    (before after : Endpoint Handler Application) : Prop where
  counters_eq : after.counters = before.counters.set counter.index (before.counter counter + 1)
  contexts_eq : ∃ hosted : Hosted, hosted.context = context ∧
    after.contexts = before.contexts ++ [hosted]
  registries_eq : after.registries = before.registries

/-- A source of numbers hosts a context that was not there, or nothing. -/
theorem hostNumbered_cases (counter : CounterRef) (make : Nat → Except Refusal SecurityContext)
    (endpoint : Endpoint Handler Application) :
    (∃ refusal, hostNumbered counter make endpoint = (.error refusal, endpoint)) ∨
      ∃ context later, make (endpoint.counter counter + 1) = .ok context ∧
        hostNumbered counter make endpoint = (.ok ⟨endpoint.contexts.length⟩, later) ∧
        HostsNext counter context endpoint later := by
  rw [hostNumbered, Action.bind_apply, Action.get_apply]
  dsimp only
  cases make (endpoint.counter counter + 1) with
  | error refusal => exact Or.inl ⟨refusal, rfl⟩
  | ok context => exact Or.inr ⟨context, _, rfl, rfl, rfl, ⟨_, rfl, rfl⟩, rfl⟩

theorem HostsNext.length_contexts {counter : CounterRef} {context : SecurityContext}
    (hosts : HostsNext counter context before after) :
    after.contexts.length = before.contexts.length + 1 := by
  obtain ⟨hosted, -, equal⟩ := hosts.contexts_eq
  rw [equal, List.length_append, List.length_singleton]

/-- Hosts and registers a context that takes the next number of the registry, if it can be made. -/
def registerNumbered (ref : RegistryRef) (make : Nat → Except Refusal SecurityContext) :
    Action Handler Application (Except Refusal ContextRef) := do
  let derived ← hostNumbered ((← get).registry ref).counter make
  if let .ok context := derived then register ref context
  return derived

theorem deriveInto_eq (ref : RegistryRef) (keying : Keying) (sender recipient : Bytes) :
    (deriveInto ref keying sender recipient : Action Handler Application _) =
      registerNumbered ref (SecurityContext.derive keying sender recipient) := by
  simp only [deriveInto, derive_eq]
  rfl

theorem deriveGroupInto_eq (ref : RegistryRef) (parameters : GroupParameters) :
    (deriveGroupInto ref parameters : Action Handler Application _) =
      registerNumbered ref (SecurityContext.deriveGroup parameters) := by
  simp only [deriveGroupInto, deriveGroup_eq]
  rfl

/-- What is derived into a registry is a new instance. -/
theorem registerNumbered_grows (orderly : endpoint.Orderly ref)
    (make : Nat → Except Refusal SecurityContext) :
    endpoint.Grows ref (registerNumbered ref make endpoint).2 := by
  rw [registerNumbered, Action.bind_apply, Action.get_apply, Action.bind_apply]
  rcases hostNumbered_cases (endpoint.registry ref).counter make endpoint with
    ⟨refusal, refused⟩ | ⟨_, later, -, made, hosts⟩
  · rw [refused]
    exact .refl endpoint
  · rw [made]
    have contexts := hosts.length_contexts
    have same : later.registered ref = endpoint.registered ref := by
      rw [registered, registry, hosts.registries_eq, registered, registry]
    have grown : endpoint.Grows ref later :=
      .of_registered (Nat.le_of_eq (congrArg List.length hosts.registries_eq).symm) (by omega) same
    have hosted : endpoint.contexts.length < later.contexts.length := by omega
    refine grown.trans (grows_register (orderly.grows grown) ?_ hosted)
    -- the place of the new context was still free, so nothing that is registered has it
    intro member
    rw [same] at member
    exact Nat.lt_irrefl _ (orderly.hosted _ member)

theorem deriveInto_grows (orderly : endpoint.Orderly ref) (keying : Keying)
    (sender recipient : Bytes) :
    endpoint.Grows ref (deriveInto ref keying sender recipient endpoint).2 := by
  rw [deriveInto_eq]
  exact registerNumbered_grows orderly _

theorem deriveGroupInto_grows (orderly : endpoint.Orderly ref) (parameters : GroupParameters) :
    endpoint.Grows ref (deriveGroupInto ref parameters endpoint).2 := by
  rw [deriveGroupInto_eq]
  exact registerNumbered_grows orderly _

/-! ### Lookups that miss -/

/-- What handlers make of a lookup: it misses, and they leave an endpoint behind and an event that
names a context. -/
structure Supplies (behaviour : Behaviour Handler Application) (ref : RegistryRef)
    (groupId : Option Bytes) (keyId : Bytes) (before after : Endpoint Handler Application)
    (event : Event) (context : ContextRef) : Prop where
  missed : before.firstHolding (before.byGroup ref groupId) keyId = none
  raised : raise behaviour (before.registry ref).channel
    (missEvent groupId keyId (before.byGroup ref groupId)) before = (event, after)
  named : event.context = some context

/-- Registers a context that a handler supplied, unless it was a candidate when the lookup
began. -/
def enroll (ref : RegistryRef) (candidates : List ContextRef) (context : ContextRef)
    (endpoint : Endpoint Handler Application) : Endpoint Handler Application :=
  if context ∉ candidates then (register ref context endpoint).2 else endpoint

/-- A lookup finds what is there, and otherwise asks the handlers: they supply nothing, or it
registers what they supply and goes on in it. -/
theorem resolve_eq (behaviour : Behaviour Handler Application) (ref : RegistryRef)
    (groupId : Option Bytes) (keyId : Bytes) (endpoint : Endpoint Handler Application) :
    resolve behaviour ref groupId keyId endpoint =
      let candidates := endpoint.byGroup ref groupId
      match endpoint.firstHolding candidates keyId with
      | some found => (.resolved found.1 found.2, endpoint)
      | none =>
        let raised := raise behaviour (endpoint.registry ref).channel
          (missEvent groupId keyId candidates) endpoint
        match raised.1.context with
        | none => (unresolved raised.1.status, raised.2)
        | some context =>
          resolveIn behaviour context raised.1 keyId (raised.2.enroll ref candidates context) := by
  rw [resolve, Action.bind_apply, Action.get_apply]
  dsimp only
  cases endpoint.firstHolding (endpoint.byGroup ref groupId) keyId with
  | some found => rfl
  | none =>
    dsimp only
    rw [Action.bind_apply]
    cases (raise behaviour (endpoint.registry ref).channel
      (missEvent groupId keyId (endpoint.byGroup ref groupId)) endpoint).1.context with
    | none => rfl
    | some context =>
      dsimp only
      rw [enroll]
      split <;> rfl

theorem Supplies.resolve_eq {groupId : Option Bytes} {keyId : Bytes} {event : Event}
    (supplies : Supplies behaviour ref groupId keyId before after event context) :
    resolve behaviour ref groupId keyId before = resolveIn behaviour context event keyId
      (after.enroll ref (before.byGroup ref groupId) context) := by
  rw [Endpoint.resolve_eq]
  dsimp only
  rw [supplies.missed, supplies.raised]
  dsimp only
  rw [supplies.named]

end Endpoint

/-! ### Calls -/

/-- What an application calls on a registry. -/
inductive Call
  /-- Derives the context of a sender and one recipient. -/
  | derive (keying : Keying) (sender recipient : Bytes)
  /-- Derives the context of a group. -/
  | deriveGroup (parameters : GroupParameters)
  /-- Registers a context. -/
  | add (context : ContextRef)
  /-- Looks up the context and the entity that a message is from. -/
  | resolve (groupId : Option Bytes) (keyId : Bytes)
  deriving Repr

namespace Call

variable {behaviour : Behaviour Handler Application} {ref : RegistryRef}
  {endpoint : Endpoint Handler Application}

/-- The endpoint that a call leaves. -/
def next (behaviour : Behaviour Handler Application) (ref : RegistryRef)
    (endpoint : Endpoint Handler Application) : Call → Endpoint Handler Application
  | derive keying sender recipient => (Endpoint.deriveInto ref keying sender recipient endpoint).2
  | deriveGroup parameters => (Endpoint.deriveGroupInto ref parameters endpoint).2
  | add context => (Endpoint.register ref context endpoint).2
  | resolve groupId keyId => (Endpoint.resolve behaviour ref groupId keyId endpoint).2

/-- The endpoint that some calls leave, one after another. -/
def after (behaviour : Behaviour Handler Application) (ref : RegistryRef)
    (endpoint : Endpoint Handler Application) (calls : List Call) :
    Endpoint Handler Application :=
  calls.foldl (next behaviour ref) endpoint

/-- Calls whose contexts are hosted, and whose handlers register none that is registered. The
handlers act twice in a lookup: when it misses, and in the context that they supplied. -/
def Tidy (behaviour : Behaviour Handler Application) (ref : RegistryRef)
    (endpoint : Endpoint Handler Application) : Call → Prop
  | derive _ _ _ | deriveGroup _ => True
  | add context => context.index < endpoint.contexts.length
  | resolve groupId keyId =>
    let candidates := endpoint.byGroup ref groupId
    (endpoint.firstHolding candidates keyId = none → endpoint.Grows ref
      (Endpoint.raise behaviour (endpoint.registry ref).channel
        (Endpoint.missEvent groupId keyId candidates) endpoint).2) ∧
    ∀ after event context,
      Endpoint.Supplies behaviour ref groupId keyId endpoint after event context →
      context.index < after.contexts.length ∧
        (after.enroll ref candidates context).Grows ref (Endpoint.resolveIn behaviour context event
          keyId (after.enroll ref candidates context)).2

/-- Calls that register a context that is registered. A lookup does so when a handler supplies a
context that was no candidate, and yet is registered by the time the handlers are done. -/
def Repeats (behaviour : Behaviour Handler Application) (ref : RegistryRef)
    (endpoint : Endpoint Handler Application) : Call → Prop
  | derive _ _ _ | deriveGroup _ => False
  | add context => context ∈ endpoint.registered ref
  | resolve groupId keyId => ∃ after event context,
    Endpoint.Supplies behaviour ref groupId keyId endpoint after event context ∧
      context ∉ endpoint.byGroup ref groupId ∧ context ∈ after.registered ref

end Call

namespace Endpoint

variable {behaviour : Behaviour Handler Application} {ref : RegistryRef}
  {before after endpoint : Endpoint Handler Application} {context : ContextRef}
  {candidates : List ContextRef} {groupId : Option Bytes} {keyId : Bytes} {event : Event}

/-! ### Enrolling a context -/

theorem enroll_of_mem (candidate : context ∈ candidates) :
    endpoint.enroll ref candidates context = endpoint :=
  if_neg (not_not_intro candidate)

theorem enroll_of_not_mem (other : context ∉ candidates) :
    endpoint.enroll ref candidates context = (register ref context endpoint).2 :=
  if_pos other

theorem orderly_enroll (orderly : endpoint.Orderly ref)
    (hosted : context.index < endpoint.contexts.length) :
    (endpoint.enroll ref candidates context).Orderly ref := by
  by_cases candidate : context ∈ candidates
  · rw [enroll_of_mem candidate]
    exact orderly
  · rw [enroll_of_not_mem candidate]
    exact orderly_register orderly hosted

theorem nodup_enroll (orderly : endpoint.Orderly ref) :
    ((endpoint.enroll ref candidates context).registered ref).Nodup ↔
      (endpoint.registered ref).Nodup ∧
        ¬(context ∉ candidates ∧ context ∈ endpoint.registered ref) := by
  by_cases candidate : context ∈ candidates
  · rw [enroll_of_mem candidate]
    exact ⟨fun distinct => ⟨distinct, fun both => both.1 candidate⟩, And.left⟩
  · rw [enroll_of_not_mem candidate, nodup_register orderly]
    exact and_congr_right fun _ => ⟨fun absent both => absent both.2,
      fun either there => either ⟨candidate, there⟩⟩

/-- What is enrolled is registered once exactly when it was a candidate, which is registered, or
was not registered at all. -/
theorem count_enroll (orderly : endpoint.Orderly ref) (distinct : (endpoint.registered ref).Nodup)
    (there : ∀ candidate ∈ candidates, candidate ∈ endpoint.registered ref) :
    context ∈ (endpoint.enroll ref candidates context).registered ref ∧
      (((endpoint.enroll ref candidates context).registered ref).count context = 1 ↔
        ¬(context ∉ candidates ∧ context ∈ endpoint.registered ref)) := by
  by_cases candidate : context ∈ candidates
  · rw [enroll_of_mem candidate]
    have member := there context candidate
    exact ⟨member, fun _ both => both.1 candidate,
      fun _ => List.count_eq_one_of_mem distinct member⟩
  · rw [enroll_of_not_mem candidate, registered_register orderly.there, List.count_append,
      List.count_singleton_self, Nat.add_eq_right, List.count_eq_zero]
    exact ⟨List.mem_append_right _ (List.mem_singleton_self _), fun absent both => absent both.2,
      fun either member => either ⟨candidate, member⟩⟩

theorem mem_registered_of_candidate (candidate : context ∈ endpoint.byGroup ref groupId) :
    context ∈ endpoint.registered ref :=
  List.mem_of_mem_filter candidate

/-! ### One call -/

/-- A lookup has one outcome. -/
theorem Supplies.repeats_iff
    (supplies : Supplies behaviour ref groupId keyId before after event context) :
    (Call.resolve groupId keyId).Repeats behaviour ref before ↔
      context ∉ before.byGroup ref groupId ∧ context ∈ after.registered ref := by
  constructor
  · rintro ⟨_, _, _, again, repeated⟩
    cases supplies.raised.symm.trans again.raised
    cases supplies.named.symm.trans again.named
    exact repeated
  · exact fun repeated => ⟨after, event, context, supplies, repeated⟩

/-- What a lookup leaves in which a handler supplied a context. -/
theorem Supplies.tidy (supplies : Supplies behaviour ref groupId keyId before after event context)
    (tidy : (Call.resolve groupId keyId).Tidy behaviour ref before) (orderly : before.Orderly ref) :
    before.Grows ref after ∧ (after.enroll ref (before.byGroup ref groupId) context).Orderly ref ∧
      (after.enroll ref (before.byGroup ref groupId) context).Grows ref
        ((Call.resolve groupId keyId).next behaviour ref before) := by
  obtain ⟨grows, afterwards⟩ := tidy
  have grown := grows supplies.missed
  rw [supplies.raised] at grown
  obtain ⟨hosted, goesOn⟩ := afterwards after event context supplies
  rw [Call.next, supplies.resolve_eq]
  exact ⟨grown, orderly_enroll (orderly.grows grown) hosted, goesOn⟩

theorem next_resolve_cases (behaviour : Behaviour Handler Application) (ref : RegistryRef)
    (groupId : Option Bytes) (keyId : Bytes) (endpoint : Endpoint Handler Application) :
    (∃ after event context, Supplies behaviour ref groupId keyId endpoint after event context) ∨
      ¬(Call.resolve groupId keyId).Repeats behaviour ref endpoint ∧
        ((Call.resolve groupId keyId).Tidy behaviour ref endpoint →
          endpoint.Grows ref ((Call.resolve groupId keyId).next behaviour ref endpoint)) := by
  rw [Call.next, resolve_eq]
  dsimp only
  cases holding : endpoint.firstHolding (endpoint.byGroup ref groupId) keyId with
  | some found =>
    refine Or.inr ⟨?_, fun _ => .refl endpoint⟩
    rintro ⟨_, _, _, supplies, -⟩
    cases holding.symm.trans supplies.missed
  | none =>
    dsimp only
    cases named : (raise behaviour (endpoint.registry ref).channel
      (missEvent groupId keyId (endpoint.byGroup ref groupId)) endpoint).1.context with
    | none =>
      refine Or.inr ⟨?_, fun tidy => tidy.1 holding⟩
      rintro ⟨_, _, _, supplies, -⟩
      rw [supplies.raised] at named
      cases named.symm.trans supplies.named
    | some context => exact Or.inl ⟨_, _, context, holding, rfl, named⟩

end Endpoint

namespace Call

open Endpoint

variable {behaviour : Behaviour Handler Application} {ref : RegistryRef}
  {endpoint : Endpoint Handler Application} {call : Call} {calls : List Call}

/-- After a call no context is registered twice exactly when none was before and the call repeats
none. -/
theorem Tidy.next (orderly : endpoint.Orderly ref) (tidy : call.Tidy behaviour ref endpoint) :
    (call.next behaviour ref endpoint).Orderly ref ∧
      (((call.next behaviour ref endpoint).registered ref).Nodup ↔
        (endpoint.registered ref).Nodup ∧ ¬call.Repeats behaviour ref endpoint) := by
  have grown {after : Endpoint Handler Application} (grows : endpoint.Grows ref after)
      (once : ¬call.Repeats behaviour ref endpoint) : after.Orderly ref ∧
        ((after.registered ref).Nodup ↔
          (endpoint.registered ref).Nodup ∧ ¬call.Repeats behaviour ref endpoint) :=
    ⟨orderly.grows grows, grows.nodup_iff.trans (iff_self_and.mpr fun _ => once)⟩
  cases call with
  | derive keying sender recipient => exact grown (deriveInto_grows orderly _ _ _) not_false
  | deriveGroup parameters => exact grown (deriveGroupInto_grows orderly _) not_false
  | add context => exact ⟨orderly_register orderly tidy, nodup_register orderly context⟩
  | resolve groupId keyId =>
    rcases next_resolve_cases behaviour ref groupId keyId endpoint with
      ⟨after, event, context, supplies⟩ | ⟨once, grows⟩
    · obtain ⟨grows, enrolled, goesOn⟩ := supplies.tidy tidy orderly
      refine ⟨enrolled.grows goesOn, ?_⟩
      rw [goesOn.nodup_iff, nodup_enroll (orderly.grows grows), grows.nodup_iff,
        supplies.repeats_iff]
    · exact grown (grows tidy) once

/-- What holds at every place of a list holds at its head and at every later place. -/
theorem forall_places_cons {Element : Type} {law : List Element → Element → Prop}
    {element : Element} {elements : List Element} :
    (∀ front chosen back, element :: elements = front ++ chosen :: back → law front chosen) ↔
      law [] element ∧ ∀ front chosen back, elements = front ++ chosen :: back →
        law (element :: front) chosen := by
  constructor
  · intro all
    refine ⟨all [] element elements rfl, ?_⟩
    intro front chosen back equal
    exact all (element :: front) chosen back (congrArg (element :: ·) equal)
  · rintro ⟨first, others⟩ front chosen back equal
    cases front with
    | nil =>
      cases equal
      exact first
    | cons head front =>
      obtain ⟨rfl, rest⟩ := List.cons.inj equal
      exact others front chosen back rest

theorem nodup_after_iff (orderly : endpoint.Orderly ref)
    (tidy : ∀ front call rest, calls = front ++ call :: rest →
      call.Tidy behaviour ref (after behaviour ref endpoint front)) :
    (after behaviour ref endpoint calls).Orderly ref ∧
      (((after behaviour ref endpoint calls).registered ref).Nodup ↔
        (endpoint.registered ref).Nodup ∧ ∀ front call rest, calls = front ++ call :: rest →
          ¬call.Repeats behaviour ref (after behaviour ref endpoint front)) := by
  induction calls generalizing endpoint with
  | nil =>
    refine ⟨orderly, Iff.symm (and_iff_left ?_)⟩
    intro front _ _ equal
    cases front <;> cases equal
  | cons first rest inductionHypothesis =>
    obtain ⟨tidyNow, tidyRest⟩ := forall_places_cons.mp tidy
    obtain ⟨orderlyNext, distinctNext⟩ := tidyNow.next orderly
    obtain ⟨orderlyAfter, distinctAfter⟩ := inductionHypothesis orderlyNext tidyRest
    refine ⟨orderlyAfter, ?_⟩
    rw [forall_places_cons, ← and_assoc]
    exact distinctAfter.trans (and_congr_left' distinctNext)

/-- However an application derives, adds and looks up contexts, and whatever handlers derive and
register meanwhile, a registry comes to hold a context twice exactly when a call of the run
repeats one. A context that a handler supplies is registered once when the lookup returns exactly
when it was a candidate of the lookup, or was not registered when the handlers were done. -/
theorem registered_once_iff (orderly : endpoint.Orderly ref)
    (distinct : (endpoint.registered ref).Nodup)
    (tidy : ∀ front call rest, calls = front ++ call :: rest →
      call.Tidy behaviour ref (after behaviour ref endpoint front)) :
    (((after behaviour ref endpoint calls).registered ref).Nodup ↔
      ∀ front call rest, calls = front ++ call :: rest →
        ¬call.Repeats behaviour ref (after behaviour ref endpoint front)) ∧
    ∀ front groupId keyId rest, calls = front ++ .resolve groupId keyId :: rest →
      let asked := after behaviour ref endpoint front
      (asked.registered ref).Nodup → ∀ later event context,
        Supplies behaviour ref groupId keyId asked later event context →
        ((((resolve groupId keyId).next behaviour ref asked).registered ref).count context = 1 ↔
          context ∈ asked.byGroup ref groupId ∨ context ∉ later.registered ref) := by
  constructor
  · rw [(nodup_after_iff orderly tidy).2]
    exact and_iff_right distinct
  · rintro front groupId keyId rest rfl asked distinctBefore later event context supplies
    have tidyFront : ∀ early call back, front = early ++ call :: back →
        call.Tidy behaviour ref (after behaviour ref endpoint early) := by
      rintro early call back rfl
      exact tidy early call (back ++ .resolve groupId keyId :: rest) (List.append_assoc ..)
    obtain ⟨orderlyFront, -⟩ := nodup_after_iff orderly tidyFront
    obtain ⟨grows, enrolled, goesOn⟩ :=
      supplies.tidy (tidy front (.resolve groupId keyId) rest rfl) orderlyFront
    obtain ⟨member, once⟩ := @count_enroll _ _ ref later context _ (orderlyFront.grows grows)
      (grows.nodup_iff.mpr distinctBefore)
      fun candidate there => grows.mem (mem_registered_of_candidate there)
    rw [goesOn.count_eq member, once, not_and_or, not_not]

/-- A handler derives a context for the group that is asked for and supplies it, and the second
lookup finds it: it is registered once. -/
theorem registered_once_supplied :
    let supplier : Behaviour Unit Unit := fun _ event => do
      match ← Endpoint.derive ⟨0⟩ { secret := [1], idContext := some [7] } [] [1] with
      | .ok context => return { event with context := some context }
      | .error _ => return event
    let endpoint : Endpoint Unit Unit := {
      counters := [0], channels := [{ handlers := [(0, ())], issued := 1 }]
      registries := [{ counter := ⟨0⟩, channel := ⟨0⟩ }], application := () }
    let calls := [resolve (some [7]) [1], resolve (some [7]) [1]]
    (after supplier ⟨0⟩ endpoint calls).registered ⟨0⟩ = [⟨0⟩] ∧
      ∀ front call rest, calls = front ++ call :: rest →
        ¬call.Repeats supplier ⟨0⟩ (after supplier ⟨0⟩ endpoint front) := by
  intro supplier endpoint calls
  have once : (after supplier ⟨0⟩ endpoint calls).registered ⟨0⟩ = [⟨0⟩] := by decide +kernel
  refine ⟨once, ?_⟩
  have orderly : endpoint.Orderly ⟨0⟩ := ⟨by decide, fun _ member => nomatch member⟩
  have first : (resolve (some [7]) [1]).Tidy supplier ⟨0⟩ endpoint := by
    refine ⟨fun _ => .of_registered (by decide) (by decide +kernel) (by decide +kernel), ?_⟩
    intro later event context supplies
    have eventEq := congrArg Prod.fst supplies.raised
    have laterEq := congrArg Prod.snd supplies.raised
    subst eventEq laterEq
    -- the new context is the first of the endpoint
    cases supplies.named.symm.trans (by decide +kernel : _ = some (⟨0⟩ : ContextRef))
    exact ⟨by decide +kernel, .of_registered (by decide +kernel) (by decide +kernel)
      (by decide +kernel)⟩
  have second : (resolve (some [7]) [1]).Tidy supplier ⟨0⟩
      (after supplier ⟨0⟩ endpoint [resolve (some [7]) [1]]) := by
    have found : firstHolding (after supplier ⟨0⟩ endpoint [resolve (some [7]) [1]])
        (byGroup (after supplier ⟨0⟩ endpoint [resolve (some [7]) [1]]) ⟨0⟩ (some [7])) [1] ≠
          none := by
      decide +kernel
    exact ⟨fun missed => absurd missed found, fun _ _ _ supplies => absurd supplies.missed found⟩
  refine (registered_once_iff orderly List.nodup_nil (forall_places_cons.mpr
    ⟨first, forall_places_cons.mpr ⟨second, ?_⟩⟩)).1.mp ?_
  · intro front _ _ equal
    cases front <;> cases equal
  · rw [once]
    exact List.nodup_singleton _

/-- A handler derives a context into the registry and supplies it, and another supplies one that
is registered for another group. Either lookup registers it once more. -/
theorem registered_twice :
    let keying : Keying := { secret := [1], idContext := some [7] }
    let endpoint : Endpoint Unit Unit := {
      counters := [0], channels := [{ handlers := [(0, ())], issued := 1 }]
      registries := [{ counter := ⟨0⟩, channel := ⟨0⟩ }], application := () }
    let storing : Behaviour Unit Unit := fun _ event => do
      match ← deriveInto ⟨0⟩ keying [] [1] with
      | .ok context => return { event with context := some context }
      | .error _ => return event
    let supplying : Behaviour Unit Unit := fun _ event => return { event with context := some ⟨0⟩ }
    let holding := (deriveInto ⟨0⟩ keying [] [1] endpoint).2
    endpoint.registered ⟨0⟩ = [] ∧
      (Endpoint.resolve storing ⟨0⟩ (some [7]) [1] endpoint).2.registered ⟨0⟩ = [⟨0⟩, ⟨0⟩] ∧
      holding.registered ⟨0⟩ = [⟨0⟩] ∧
      (Endpoint.resolve supplying ⟨0⟩ (some [8]) [1] holding).2.registered ⟨0⟩ = [⟨0⟩, ⟨0⟩] := by
  decide +kernel

end Call

end Oscore
