/-
This file shows that lookups are sound and learn. Handlers may do to the endpoint
what an application may do. If they are honest about a lookup, what it finds is the
entity of a registered context of the asked group. The context holds the entity
from then on, so the same lookup finds one again, without asking anybody. It may
find an earlier context: one to which the handlers added the entity meanwhile.
-/

import Oscore.Proofs.LookupDecisions

namespace Oscore

/-! ### Groups of contexts -/

namespace SecurityContext

/-- No operation takes a context out of its group. -/
theorem groupId_after (context : SecurityContext) (operations : List Operation) :
    (context.after operations).groupId = context.groupId := by
  induction operations generalizing context with
  | nil => rfl
  | cons operation rest inductionHypothesis =>
    exact (inductionHypothesis (operation.next context)).trans
      (congrArg Keying.idContext (operation.changes_next context).identity_eq.2)

end SecurityContext

namespace Endpoint

variable {Handler Application : Type} {behaviour : Behaviour Handler Application}
  {before after endpoint : Endpoint Handler Application} {ref : RegistryRef}
  {context : ContextRef} {groupId : Option Bytes} {keyId : Bytes}

/-- Whatever an application does, a context stays in its group. -/
theorem Evolves.groupId_eq (evolves : before.Evolves after)
    (inside : context.index < before.contexts.length) :
    (after.context context).groupId = (before.context context).groupId := by
  obtain ⟨-, operations, reached⟩ := evolves.context inside
  rw [reached]
  exact (before.context context).groupId_after operations

/-! ### Honest handlers -/

/-- An exchange in which the handlers leave a registry as it is, and attach only the entity that a
supplied context holds. -/
structure Exchange.Honest (exchange : Exchange behaviour) (ref : RegistryRef) (keyId : Bytes)
    (supplied : Option ContextRef) : Prop where
  registry_eq : exchange.after.registries[ref.index]? = exchange.before.registries[ref.index]?
  own : ∀ recipient, exchange.answer.recipient = some recipient →
    ∃ context, supplied = some context ∧ exchange.after.Holds context keyId ∧
      recipient = ⟨context, .recipient keyId⟩

/-- Handlers that are honest in all exchanges of a lookup, and supply only a context of its
group. -/
structure Honest (behaviour : Behaviour Handler Application) (ref : RegistryRef)
    (groupId : Option Bytes) (keyId : Bytes) (first : Exchange behaviour)
    (further : Option (Exchange behaviour)) : Prop where
  first_honest : first.Honest ref keyId first.answer.context
  supplies : ∀ context, first.answer.context = some context →
    context.index < first.after.contexts.length ∧
      (first.after.context context).groupId = groupId
  further_honest : ∀ nested ∈ further, nested.Honest ref keyId first.answer.context

theorem registered_congr (same : after.registries[ref.index]? = before.registries[ref.index]?) :
    after.registered ref = before.registered ref := by
  rw [registered, registry, List.getD_eq_getElem?_getD, same, ← List.getD_eq_getElem?_getD]
  rfl

/-- A context that is enrolled is registered, if its candidates were. -/
theorem mem_registered_enroll {candidates : List ContextRef}
    (there : ref.index < endpoint.registries.length)
    (known : ∀ candidate ∈ candidates, candidate ∈ endpoint.registered ref) :
    context ∈ (endpoint.enroll ref candidates context).registered ref := by
  by_cases candidate : context ∈ candidates
  · rw [enroll_of_mem candidate]
    exact known context candidate
  · rw [enroll_of_not_mem candidate, registered_register there]
    exact List.mem_append_right _ (List.mem_singleton_self _)

theorem there_of_same (same : after.registries[ref.index]? = before.registries[ref.index]?)
    (there : ref.index < before.registries.length) : ref.index < after.registries.length :=
  (List.getElem?_eq_some_iff.mp (same.trans (List.getElem?_eq_getElem there))).1

theorem enroll_evolves (candidates : List ContextRef) :
    endpoint.Evolves (endpoint.enroll ref candidates context) := by
  refine .beside .refl ?_
  rw [enroll]
  split <;> rfl

theorem Exchange.evolves (lawful : behaviour.Lawful) (exchange : Exchange behaviour)
    (sound : exchange.before.Sound) : exchange.before.Evolves exchange.after := by
  have evolves := raise_lawful lawful exchange.channel exchange.event exchange.before sound
  rw [exchange.raised] at evolves
  exact evolves

theorem Exchange.Honest.of_finds {exchange : Exchange behaviour} {recipient : EntityRef}
    (honest : exchange.Honest ref keyId (some context))
    (finds : exchange.Finds context keyId recipient) :
    exchange.after.Holds context keyId ∧ recipient = ⟨context, .recipient keyId⟩ := by
  rcases finds with named | ⟨-, holds, equal⟩
  · obtain ⟨_, same, holds, equal⟩ := honest.own recipient named
    cases same
    exact ⟨holds, equal⟩
  · exact ⟨holds, equal⟩

/-! ### What is found -/

/-- A registered context of a group with the entity that it holds. -/
structure Found (endpoint : Endpoint Handler Application) (ref : RegistryRef)
    (groupId : Option Bytes) (keyId : Bytes) (context : ContextRef) (recipient : EntityRef) :
    Prop where
  registered : context ∈ endpoint.registered ref
  group_eq : (endpoint.context context).groupId = groupId
  holds : endpoint.Holds context keyId
  recipient_eq : recipient = ⟨context, .recipient keyId⟩

/-- What honest handlers make a lookup find is there when the lookup is done. -/
theorem Asks.found (lawful : behaviour.Lawful) (sound : endpoint.Sound)
    (there : ref.index < endpoint.registries.length) {first : Exchange behaviour}
    {further : Option (Exchange behaviour)} {recipient : EntityRef}
    (asks : Asks behaviour ref groupId keyId endpoint first further (.resolved context recipient)
      after)
    (honest : Honest behaviour ref groupId keyId first further) :
    after.Found ref groupId keyId context recipient := by
  obtain ⟨supplied, finds⟩ := (asks.resolved_iff context recipient).mp rfl
  obtain ⟨hosted, group⟩ := honest.supplies context supplied
  obtain ⟨before, -⟩ := asks.first_raised
  have evolves := first.evolves lawful (by rw [before]; exact sound)
  have same := honest.first_honest.registry_eq
  rw [before] at evolves same
  have firstSound := sound.evolves evolves
  have member : context ∈ (first.enrolled ref (endpoint.byGroup ref groupId)).registered ref := by
    rw [enrolled_of_context supplied]
    refine mem_registered_enroll (there_of_same same there) ?_
    rw [registered_congr same]
    exact fun _ candidate => mem_registered_of_candidate candidate
  have leaves := asks.leaves
  have firstHonest := honest.first_honest
  rw [enrolled_of_context supplied] at member leaves
  rw [supplied] at firstHonest
  cases further with
  | none =>
    obtain ⟨holds, equal⟩ := firstHonest.of_finds finds
    rw [leaves]
    exact ⟨member, (congrArg SecurityContext.groupId (enroll_context _ _)).trans group,
      (enroll_holds _ _ _).mpr holds, equal⟩
  | some nested =>
    have nestedHonest := honest.further_honest nested rfl
    rw [supplied] at nestedHonest
    obtain ⟨holds, equal⟩ := nestedHonest.of_finds finds
    obtain ⟨-, -, nestedBefore, -⟩ := asks.further_raised nested rfl
    rw [enrolled_of_context supplied] at nestedBefore
    -- the nested handlers act on the endpoint on which the context is enrolled
    have enrolled := @enroll_evolves _ _ first.after ref context (endpoint.byGroup ref groupId)
    have nestedEvolves := nested.evolves lawful (by
      rw [nestedBefore]
      exact firstSound.evolves enrolled)
    have nestedSame := nestedHonest.registry_eq
    rw [nestedBefore] at nestedEvolves nestedSame
    have retained := (enrolled.trans nestedEvolves).groupId_eq hosted
    rw [leaves]
    refine ⟨?_, retained.trans group, holds, equal⟩
    show context ∈ nested.after.registered ref
    rw [registered_congr nestedSame]
    exact member

/-- What a lookup finds is registered, of the asked group, and has the asked identifier, if the
handlers are honest about the lookup. The same lookup afterwards finds a context again, asks nobody
and changes nothing, whoever the handlers are by then. -/
theorem resolve_learns (lawful : behaviour.Lawful) (sound : endpoint.Sound)
    (there : ref.index < endpoint.registries.length)
    (honest : ∀ first further, Asks behaviour ref groupId keyId endpoint first further
      (resolve behaviour ref groupId keyId endpoint).1
      (resolve behaviour ref groupId keyId endpoint).2 →
        Honest behaviour ref groupId keyId first further)
    {recipient : EntityRef}
    (resolved : resolve behaviour ref groupId keyId endpoint =
      (.resolved context recipient, after)) :
    (context ∈ after.registered ref ∧ (after.context context).groupId = groupId ∧
      recipient = ⟨context, .recipient keyId⟩ ∧
      ∃ entity, (after.context context).recipient? keyId = some entity ∧
        after.entity? recipient = some entity ∧ entity.id = keyId) ∧
    ∀ other : Behaviour Handler Application, ∃ again,
      resolve other ref groupId keyId after = (.resolved again ⟨again, .recipient keyId⟩, after) ∧
        Earliest (after.registered ref) (fun candidate =>
          (after.context candidate).groupId = groupId ∧ after.Holds candidate keyId) again := by
  have found : after.Found ref groupId keyId context recipient := by
    by_cases held : ∃ candidate ∈ endpoint.registered ref,
        (endpoint.context candidate).groupId = groupId ∧ endpoint.Holds candidate keyId
    · obtain ⟨candidate, member, group, holds⟩ := held
      obtain ⟨earliest, ⟨front, back, split, ⟨earliestGroup, earliestHolds⟩, -⟩, hit⟩ :=
        resolve_of_holder behaviour member group holds
      cases hit.symm.trans resolved
      refine ⟨?_, earliestGroup, earliestHolds, rfl⟩
      rw [split]
      exact List.mem_append_right _ List.mem_cons_self
    · obtain ⟨first, further, asks⟩ := @asks_of_missed _ _ behaviour endpoint ref groupId keyId
        fun candidate member both => held ⟨candidate, member, both⟩
      have answered := honest first further asks
      rw [resolved] at asks
      exact asks.found lawful sound there answered
  obtain ⟨member, group, ⟨entity, present⟩, rfl⟩ := found
  refine ⟨⟨member, group, rfl, entity, present, present, SecurityContext.id_of_recipient? present⟩,
    fun other => ?_⟩
  obtain ⟨again, earliest, hit⟩ := resolve_of_holder other member group ⟨entity, present⟩
  exact ⟨again, hit, earliest⟩

/-! ### A handler that adds what is missed -/

/-- An endpoint with one registered context. The registry has no handlers, and the context has
one. -/
def registering (context : SecurityContext) : Endpoint Unit Unit where
  channels := [{}, { handlers := [(0, ())], issued := 1 }]
  contexts := [{ context, channel := ⟨1⟩ }]
  registries := [{ contexts := [⟨0⟩], counter := ⟨0⟩, channel := ⟨0⟩ }]
  application := ()

section

variable {context larger : SecurityContext} {id : Bytes} {key : SigningKey}
  {adding : Behaviour Unit Unit} {first : Exchange adding} {further : Option (Exchange adding)}
  {answer : Resolution} {later : Endpoint Unit Unit}

theorem lacks_of_added (added : context.addRecipient id key = .ok larger) :
    ¬(registering context).Holds ⟨0⟩ id := by
  rintro ⟨entity, found⟩
  obtain ⟨-, free, -⟩ := SecurityContext.addRecipient_eq_ok.mp added
  cases free.symm.trans found

theorem holds_of_added (added : context.addRecipient id key = .ok larger) :
    (registering larger).Holds ⟨0⟩ id := by
  obtain ⟨-, -, _, -, -, rfl⟩ := SecurityContext.addRecipient_eq_ok.mp added
  rw [← isSome_recipient?_iff]
  show (SecurityContext.recipient? _ id).isSome
  rw [SecurityContext.recipient?, List.find?_isSome]
  exact ⟨_, List.mem_append_right _ List.mem_cons_self, decide_eq_true rfl⟩

/-- The handler of the context adds the entity, whatever it is told. -/
theorem raise_adding (added : context.addRecipient id key = .ok larger) (event : Event) :
    raise (.doing (addRecipient ⟨0⟩ id key)) ⟨1⟩ event (registering context) =
      (event, registering larger) := by
  have makes : ((registering context).context ⟨0⟩).addRecipient id key = .ok larger := added
  show (event, (addRecipient ⟨0⟩ id key (registering context)).2) = _
  rw [addRecipient, change_eq, makes]
  rfl

/-- The registry has no handlers, so the first event comes back as it was raised. -/
theorem Asks.first_registering (named : context.groupId = groupId)
    (asks : Asks adding ⟨0⟩ groupId id (registering context) first further answer later) :
    first.answer.context = some ⟨0⟩ ∧ first.answer.recipient = none ∧
      first.after = registering context := by
  obtain ⟨known, earliest, event⟩ := asks.first_event
  have names : known = some ⟨0⟩ :=
    (earliest ⟨0⟩).mpr ⟨[], [], rfl, named, List.forall_mem_nil _⟩
  have raised := first.raised
  rw [asks.first_raised.1, asks.first_raised.2, event, names] at raised
  obtain ⟨answered, left⟩ := Prod.mk.inj raised
  exact ⟨congrArg Event.context answered.symm, congrArg Event.recipient answered.symm, left.symm⟩

/-- So the handler of the context is asked as well. It names nothing, and adds the entity. -/
theorem Asks.further_registering (named : context.groupId = groupId)
    (lacks : ¬(registering context).Holds ⟨0⟩ id)
    (adds : ∀ event, raise adding ⟨1⟩ event (registering context) = (event, registering larger))
    (asks : Asks adding ⟨0⟩ groupId id (registering context) first further answer later) :
    ∃ nested, further = some nested ∧ nested.before = registering context ∧
      nested.answer.recipient = none ∧ nested.after = registering larger := by
  obtain ⟨supplied, unnamed, left⟩ := asks.first_registering named
  obtain ⟨nested, rfl⟩ := Option.isSome_iff_exists.mp
    (asks.further_iff.mpr ⟨⟨0⟩, supplied, unnamed, by rw [left]; exact lacks⟩)
  obtain ⟨_, same, before, channel, event⟩ := asks.further_raised nested rfl
  cases supplied.symm.trans same
  have candidate : (⟨0⟩ : ContextRef) ∈ (registering context).byGroup ⟨0⟩ groupId :=
    List.mem_filter.mpr ⟨List.mem_singleton_self _, decide_eq_true named⟩
  rw [enrolled_of_context supplied, enroll_of_mem candidate, left] at before
  rw [left] at channel
  have raised := nested.raised
  rw [before, channel, event] at raised
  obtain ⟨answered, leaves⟩ := Prod.mk.inj ((adds _).symm.trans raised)
  exact ⟨nested, rfl, before, congrArg Event.recipient answered.symm, leaves.symm⟩

theorem Asks.honest_registering (named : context.groupId = groupId)
    (lacks : ¬(registering context).Holds ⟨0⟩ id)
    (adds : ∀ event, raise adding ⟨1⟩ event (registering context) = (event, registering larger))
    (asks : Asks adding ⟨0⟩ groupId id (registering context) first further answer later) :
    Honest adding ⟨0⟩ groupId id first further := by
  obtain ⟨supplied, unnamed, left⟩ := asks.first_registering named
  obtain ⟨nested, rfl, before, silent, leaves⟩ := asks.further_registering named lacks adds
  refine ⟨⟨by rw [left, asks.first_raised.1], fun recipient same => ?_⟩,
    fun context same => ?_, fun other same => ?_⟩
  · cases unnamed.symm.trans same
  · cases supplied.symm.trans same
    rw [left]
    exact ⟨Nat.one_pos, named⟩
  · cases same
    refine ⟨by rw [leaves, before]; rfl, fun recipient same => ?_⟩
    cases silent.symm.trans same

/-- The lookup finds the entity that the handler added. -/
theorem resolve_registering (named : context.groupId = groupId)
    (lacks : ¬(registering context).Holds ⟨0⟩ id) (holds : (registering larger).Holds ⟨0⟩ id)
    (adds : ∀ event, raise adding ⟨1⟩ event (registering context) = (event, registering larger)) :
    resolve adding ⟨0⟩ groupId id (registering context) =
      (.resolved ⟨0⟩ ⟨⟨0⟩, .recipient id⟩, registering larger) := by
  have missed : ∀ candidate ∈ (registering context).registered ⟨0⟩,
      ¬(((registering context).context candidate).groupId = groupId ∧
        (registering context).Holds candidate id) := by
    rintro candidate member ⟨-, held⟩
    rw [List.mem_singleton.mp member] at held
    exact lacks held
  obtain ⟨first, further, asks⟩ := asks_of_missed missed
  obtain ⟨supplied, -, -⟩ := asks.first_registering named
  obtain ⟨nested, rfl, -, unnamed, left⟩ := asks.further_registering named lacks adds
  rw [← left] at holds
  exact Prod.ext ((asks.resolved_iff _ _).mpr ⟨supplied, .inr ⟨unnamed, holds, rfl⟩⟩)
    (asks.leaves.trans left)

end

/-- A handler of a group context adds the member that a lookup misses. The lookup finds it, and so
do all later ones, whatever the handlers do by then. -/
theorem resolve_learns_added :
    ∃ (behaviour : Behaviour Unit Unit) (endpoint later : Endpoint Unit Unit),
      behaviour.Lawful ∧ endpoint.Sound ∧ endpoint.registered ⟨0⟩ = [⟨0⟩] ∧
      ¬endpoint.Holds ⟨0⟩ [0x0c] ∧
      resolve behaviour ⟨0⟩ (some [7]) [0x0c] endpoint =
        (.resolved ⟨0⟩ ⟨⟨0⟩, .recipient [0x0c]⟩, later) ∧
      ∃ entity, later.entity? ⟨⟨0⟩, .recipient [0x0c]⟩ = some entity ∧ entity.id = [0x0c] ∧
      ∀ other : Behaviour Unit Unit, resolve other ⟨0⟩ (some [7]) [0x0c] later =
        (.resolved ⟨0⟩ ⟨⟨0⟩, .recipient [0x0c]⟩, later) := by
  obtain ⟨key, -, fits⟩ := @SecurityContext.exists_ofSeed (List.replicate 32 0x11) rfl
  have known : Keying.resolve { secret := [1], idContext := some [7] } =
      .ok ⟨[1], [], some [7], .aesCcm8, .sha256, {}⟩ := rfl
  obtain ⟨context, derived, -, -, -, -, can⟩ :=
    @SecurityContext.deriveGroup_alone _ _ [0x0a] key known (by decide) fits 1
  obtain ⟨larger, added⟩ := (can [0x0c] (by decide)).2
  have named : context.groupId = some [7] := by
    obtain ⟨_, _, _, _, _, _, _, _, _, _, _, rfl⟩ := SecurityContext.deriveGroup_eq_ok.mp derived
    rfl
  have lawful := Behaviour.doing_lawful (@addRecipient_lawful Unit Unit ⟨0⟩ [0x0c] key)
  have sound : (registering context).Sound := sound_of_single rfl (.deriveGroup derived)
  have lacks := lacks_of_added added
  have adds := raise_adding added
  have resolved := resolve_registering named lacks (holds_of_added added) adds
  obtain ⟨⟨-, -, -, entity, -, present, identified⟩, again⟩ :=
    resolve_learns lawful sound Nat.one_pos
      (fun _ _ asks => asks.honest_registering named lacks adds) resolved
  refine ⟨_, _, _, lawful, sound, rfl, lacks, resolved, entity, present, identified,
    fun other => ?_⟩
  obtain ⟨candidate, found, front, back, split, -⟩ := again other
  have member : candidate ∈ [⟨0⟩] := by
    show candidate ∈ (registering larger).registered ⟨0⟩
    rw [split]
    exact List.mem_append_right _ List.mem_cons_self
  rw [List.mem_singleton.mp member] at found
  exact found

end Endpoint

end Oscore
