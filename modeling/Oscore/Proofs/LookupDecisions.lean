/-
This file decides what a lookup does. When a registered context of the asked group
holds the asked entity, the lookup finds the earliest one and asks nobody.
Otherwise it raises one event on the channel of the registry, and one more on the
channel of the context that came back, unless none came back or the entity is
there by then. What it answers depends on what came back alone: the handlers are
arbitrary, and may act on the endpoint meanwhile.
-/

import Oscore.Proofs.Registration

namespace Oscore

namespace Endpoint

variable {Handler Application : Type} {behaviour : Behaviour Handler Application}
  {endpoint after : Endpoint Handler Application} {ref : RegistryRef} {context : ContextRef}
  {groupId : Option Bytes} {keyId : Bytes}

/-! ### Looking through a registry -/

/-- Whether a context holds a recipient. -/
def Holds (endpoint : Endpoint Handler Application) (context : ContextRef) (id : Bytes) : Prop :=
  ∃ entity, (endpoint.context context).recipient? id = some entity

/-- The first of some contexts that a law holds of. -/
def Earliest (contexts : List ContextRef) (law : ContextRef → Prop) (context : ContextRef) : Prop :=
  ∃ front back, contexts = front ++ context :: back ∧ law context ∧ ∀ other ∈ front, ¬law other

theorem find?_eq_some_iff_earliest {contexts : List ContextRef} {law : ContextRef → Prop}
    {test : ContextRef → Bool} (decides : ∀ context, test context ↔ law context) :
    contexts.find? test = some context ↔ Earliest contexts law context := by
  rw [List.find?_eq_some_iff_append, Earliest]
  simp only [decides, Bool.not_eq_true', ← Bool.not_eq_true]
  constructor
  · rintro ⟨holds, front, back, split, earlier⟩
    exact ⟨front, back, split, holds, earlier⟩
  · rintro ⟨front, back, split, holds, earlier⟩
    exact ⟨holds, front, back, split, earlier⟩

theorem isSome_recipient?_iff (context : ContextRef) (id : Bytes) :
    ((endpoint.context context).recipient? id).isSome ↔ endpoint.Holds context id :=
  Option.isSome_iff_exists

theorem recipientRef?_eq_some {id : Bytes} {recipient : EntityRef} :
    endpoint.recipientRef? context id = some recipient ↔
      endpoint.Holds context id ∧ recipient = ⟨context, .recipient id⟩ := by
  rw [recipientRef?, Option.map_eq_some_iff, Holds]
  constructor
  · rintro ⟨entity, found, rfl⟩
    exact ⟨⟨entity, found⟩, rfl⟩
  · rintro ⟨⟨entity, found⟩, rfl⟩
    exact ⟨entity, found, rfl⟩

theorem recipientRef?_eq_none {id : Bytes} :
    endpoint.recipientRef? context id = none ↔ ¬endpoint.Holds context id := by
  rw [recipientRef?, Option.map_eq_none_iff, ← isSome_recipient?_iff, Option.not_isSome_iff_eq_none]

theorem firstHolding_eq (contexts : List ContextRef) (id : Bytes) :
    endpoint.firstHolding contexts id =
      (contexts.find? fun context => ((endpoint.context context).recipient? id).isSome).map
        fun context => (context, ⟨context, .recipient id⟩) := by
  induction contexts with
  | nil => rfl
  | cons context rest inductionHypothesis =>
    rw [firstHolding] at inductionHypothesis ⊢
    rw [List.findSome?_cons, List.find?_cons, recipientRef?]
    cases (endpoint.context context).recipient? id with
    | none => exact inductionHypothesis
    | some entity => rfl

/-- What a lookup finds among the contexts of a group is the earliest registered context of the
group that holds the entity. -/
theorem firstHolding_byGroup :
    endpoint.firstHolding (endpoint.byGroup ref groupId) keyId =
      ((endpoint.registered ref).find? fun context =>
        (endpoint.context context).groupId = groupId ∧
          ((endpoint.context context).recipient? keyId).isSome).map
        fun context => (context, ⟨context, .recipient keyId⟩) := by
  rw [firstHolding_eq, byGroup, List.find?_filter, registered]
  simp only [Bool.decide_and, Bool.decide_eq_true]

/-- The event of a lookup that misses names the earliest registered context of the group. -/
theorem head?_byGroup_eq_some :
    (endpoint.byGroup ref groupId).head? = some context ↔
      Earliest (endpoint.registered ref)
        (fun context => (endpoint.context context).groupId = groupId) context := by
  rw [byGroup, List.head?_filter]
  exact find?_eq_some_iff_earliest fun _ => decide_eq_true_iff

theorem isEmpty_byGroup :
    (endpoint.byGroup ref groupId).isEmpty ↔
      ∀ context ∈ endpoint.registered ref, (endpoint.context context).groupId ≠ groupId := by
  rw [List.isEmpty_iff, byGroup, List.filter_eq_nil_iff]
  simp only [decide_eq_true_eq]
  rfl

/-! ### Asking the handlers -/

/-- An event that was raised on a channel, and what came of it. -/
structure Exchange (behaviour : Behaviour Handler Application) where
  channel : ChannelRef
  event : Event
  /-- The endpoint on which the event was raised. -/
  before : Endpoint Handler Application
  /-- The event that came back. -/
  answer : Event
  /-- The endpoint that the handlers left. -/
  after : Endpoint Handler Application
  raised : raise behaviour channel event before = (answer, after)

/-- Raises an event. -/
def Exchange.of (behaviour : Behaviour Handler Application) (channel : ChannelRef) (event : Event)
    (before : Endpoint Handler Application) : Exchange behaviour where
  channel
  event
  before
  answer := (raise behaviour channel event before).1
  after := (raise behaviour channel event before).2
  raised := rfl

/-- The entity that an exchange makes known in a context: the one that came back, or otherwise the
one that the context holds by then. -/
def Exchange.Finds (exchange : Exchange behaviour) (context : ContextRef) (keyId : Bytes)
    (recipient : EntityRef) : Prop :=
  exchange.answer.recipient = some recipient ∨
    exchange.answer.recipient = none ∧ exchange.after.Holds context keyId ∧
      recipient = ⟨context, .recipient keyId⟩

/-- The endpoint on which a lookup goes on: the context that came back is registered, unless it was
a candidate. -/
def Exchange.enrolled (exchange : Exchange behaviour) (ref : RegistryRef)
    (candidates : List ContextRef) : Endpoint Handler Application :=
  exchange.answer.context.elim exchange.after (exchange.after.enroll ref candidates)

/-- The event that a lookup raises when it misses. -/
structure Opens (behaviour : Behaviour Handler Application) (ref : RegistryRef)
    (groupId : Option Bytes) (keyId : Bytes) (endpoint : Endpoint Handler Application)
    (first : Exchange behaviour) : Prop where
  /-- It is raised on the channel of the registry. -/
  first_raised : first.before = endpoint ∧ first.channel = (endpoint.registry ref).channel
  /-- It names the identifiers and the earliest context of the group, and asks for the group if
  there is none. -/
  first_event : ∃ known,
    (∀ context, known = some context ↔ Earliest (endpoint.registered ref)
      (fun other => (endpoint.context other).groupId = groupId) context) ∧
    first.event = {
      code := if groupId.isSome ∧ ∀ context ∈ endpoint.registered ref,
          (endpoint.context context).groupId ≠ groupId then .unknownGroup else .unknownKey
      groupId, keyId := some keyId, context := known }

/-- How a lookup that misses asks the handlers, and what it makes of their answers. -/
structure Asks (behaviour : Behaviour Handler Application) (ref : RegistryRef)
    (groupId : Option Bytes) (keyId : Bytes) (endpoint : Endpoint Handler Application)
    (first : Exchange behaviour) (further : Option (Exchange behaviour))
    (answer : Resolution) (after : Endpoint Handler Application) : Prop
    extends Opens behaviour ref groupId keyId endpoint first where
  /-- A further event is raised exactly when a context came back without the entity. -/
  further_iff : further.isSome ↔ ∃ context, first.answer.context = some context ∧
    first.answer.recipient = none ∧ ¬first.after.Holds context keyId
  /-- It is raised on the channel of that context, which is registered by then. -/
  further_raised : ∀ nested ∈ further, ∃ context, first.answer.context = some context ∧
    nested.before = first.enrolled ref (endpoint.byGroup ref groupId) ∧
    nested.channel = (first.after.hosted context).channel ∧
    nested.event = {
      code := .unknownKey, groupId := (first.after.context context).groupId, keyId := some keyId
      context := some context }
  /-- Nothing is found without a context, or when the further event did not help either. The status
  is that of the further event, or else of the first, or else the common one. -/
  unresolved_iff : ∀ status, answer = .unresolved status ↔
    first.answer.context = none ∧ status = first.answer.status.getD 0x81 ∨
    ∃ nested context, further = some nested ∧ first.answer.context = some context ∧
      nested.answer.recipient = none ∧ ¬nested.after.Holds context keyId ∧
      status = (nested.answer.status <|> first.answer.status).getD 0x81
  /-- What is found is in the context that came back, by the last event that was raised. -/
  resolved_iff : ∀ context recipient, answer = .resolved context recipient ↔
    first.answer.context = some context ∧ (further.getD first).Finds context keyId recipient
  /-- Besides raising the events, the lookup registers the context that came back. -/
  leaves : after =
    (further.map Exchange.after).getD (first.enrolled ref (endpoint.byGroup ref groupId))

theorem enroll_hosted (candidates : List ContextRef) (other : ContextRef) :
    (endpoint.enroll ref candidates context).hosted other = endpoint.hosted other := by
  rw [enroll]
  split <;> rfl

theorem enroll_context (candidates : List ContextRef) (other : ContextRef) :
    (endpoint.enroll ref candidates context).context other = endpoint.context other :=
  congrArg Hosted.context (enroll_hosted candidates other)

theorem enroll_holds (candidates : List ContextRef) (other : ContextRef) (id : Bytes) :
    (endpoint.enroll ref candidates context).Holds other id ↔ endpoint.Holds other id := by
  rw [Holds, enroll_context, Holds]

theorem Exchange.finds_iff {exchange : Exchange behaviour} {recipient : EntityRef} :
    (exchange.answer.recipient <|> exchange.after.recipientRef? context keyId) =
        some recipient ↔
      exchange.Finds context keyId recipient := by
  rw [Finds]
  cases exchange.answer.recipient with
  | none => simp [recipientRef?_eq_some]
  | some named => simp

theorem Exchange.finds_nothing_iff {exchange : Exchange behaviour} :
    (exchange.answer.recipient <|> exchange.after.recipientRef? context keyId) = none ↔
      exchange.answer.recipient = none ∧ ¬exchange.after.Holds context keyId := by
  cases exchange.answer.recipient with
  | none => simp [recipientRef?_eq_none]
  | some named => simp

/-- The further event of a lookup, raised on the channel of the context that came back. -/
def Exchange.nested (behaviour : Behaviour Handler Application) (context : ContextRef)
    (keyId : Bytes) (before : Endpoint Handler Application) : Exchange behaviour :=
  .of behaviour (before.hosted context).channel
    { code := .unknownKey, groupId := (before.context context).groupId, keyId := some keyId
      context := some context } before

theorem resolveIn_of_found {event : Event} {recipient : EntityRef}
    (found : (event.recipient <|> endpoint.recipientRef? context keyId) = some recipient) :
    resolveIn behaviour context event keyId endpoint = (.resolved context recipient, endpoint) := by
  rw [resolveIn, Action.bind_apply, Action.get_apply]
  dsimp only
  rw [found]
  rfl

theorem resolveIn_of_missing {event : Event}
    (missing : (event.recipient <|> endpoint.recipientRef? context keyId) = none) :
    let nested := Exchange.nested behaviour context keyId endpoint
    resolveIn behaviour context event keyId endpoint =
      (match nested.answer.recipient <|> nested.after.recipientRef? context keyId with
        | some recipient => .resolved context recipient
        | none => unresolved (nested.answer.status <|> event.status), nested.after) := by
  intro nested
  rw [resolveIn, Action.bind_apply, Action.get_apply]
  dsimp only
  rw [missing]
  show (match nested.answer.recipient <|> nested.after.recipientRef? context keyId with
    | some recipient => pure (.resolved context recipient)
    | none => pure (unresolved (nested.answer.status <|> event.status)) :
      Action Handler Application Resolution) nested.after = _
  cases nested.answer.recipient <|> nested.after.recipientRef? context keyId <;> rfl

/-! ### The decision -/

theorem missEvent_eq (groupId : Option Bytes) (keyId : Bytes)
    (endpoint : Endpoint Handler Application) :
    missEvent groupId keyId (endpoint.byGroup ref groupId) = {
      code := if groupId.isSome ∧ ∀ context ∈ endpoint.registered ref,
          (endpoint.context context).groupId ≠ groupId then .unknownGroup else .unknownKey
      groupId, keyId := some keyId, context := (endpoint.byGroup ref groupId).head? } := by
  rw [missEvent]
  simp only [isEmpty_byGroup, and_comm]

/-- A lookup that finds nothing asks the handlers. -/
theorem resolve_of_missed (missed : ∀ context ∈ endpoint.registered ref,
    ¬((endpoint.context context).groupId = groupId ∧ endpoint.Holds context keyId)) :
    let first := Exchange.of behaviour (endpoint.registry ref).channel
      (missEvent groupId keyId (endpoint.byGroup ref groupId)) endpoint
    resolve behaviour ref groupId keyId endpoint =
      match first.answer.context with
      | none => (unresolved first.answer.status, first.after)
      | some context => resolveIn behaviour context first.answer keyId
        (first.after.enroll ref (endpoint.byGroup ref groupId) context) := by
  have nothing : endpoint.firstHolding (endpoint.byGroup ref groupId) keyId = none := by
    rw [firstHolding_byGroup, Option.map_eq_none_iff, List.find?_eq_none]
    simp only [decide_eq_true_eq, isSome_recipient?_iff]
    exact missed
  rw [resolve_eq]
  dsimp only
  rw [nothing]
  rfl

section Answers

variable {first : Exchange behaviour} {recipient : EntityRef} {candidates : List ContextRef}

theorem enrolled_of_no_context (supplied : first.answer.context = none) :
    first.enrolled ref candidates = first.after := by
  rw [Exchange.enrolled, supplied, Option.elim_none]

theorem enrolled_of_context (supplied : first.answer.context = some context) :
    first.enrolled ref candidates = first.after.enroll ref candidates context := by
  rw [Exchange.enrolled, supplied, Option.elim_some]

theorem Opens.asks_of_no_context (opens : Opens behaviour ref groupId keyId endpoint first)
    (supplied : first.answer.context = none) :
    Asks behaviour ref groupId keyId endpoint first none (unresolved first.answer.status)
      first.after where
  toOpens := opens
  further_iff := by simp [supplied]
  further_raised _ member := absurd member (Option.not_mem_none _)
  unresolved_iff status := by
    rw [supplied, unresolved, Resolution.unresolved.injEq, eq_comm]
    simp [unauthorized]
  resolved_iff context recipient := by simp [supplied, unresolved]
  leaves := (enrolled_of_no_context supplied).symm

theorem Opens.asks_of_finds (opens : Opens behaviour ref groupId keyId endpoint first)
    (supplied : first.answer.context = some context)
    (finds : first.Finds context keyId recipient) :
    Asks behaviour ref groupId keyId endpoint first none (.resolved context recipient)
      (first.after.enroll ref (endpoint.byGroup ref groupId) context) where
  toOpens := opens
  further_iff := by
    refine iff_of_false (by simp) ?_
    rintro ⟨other, same, unnamed, missing⟩
    cases supplied.symm.trans same
    rcases finds with named | ⟨-, holds, -⟩
    · cases unnamed.symm.trans named
    · exact missing holds
  further_raised _ member := absurd member (Option.not_mem_none _)
  unresolved_iff status := by simp [supplied]
  resolved_iff other found := by
    rw [supplied, Resolution.resolved.injEq, Option.some.injEq]
    refine and_congr_right fun same => ?_
    subst same
    show recipient = found ↔ first.Finds context keyId found
    rw [← Exchange.finds_iff] at finds ⊢
    rw [finds, Option.some.injEq]
  leaves := (enrolled_of_context supplied).symm

theorem Opens.asks_of_nested (opens : Opens behaviour ref groupId keyId endpoint first)
    (supplied : first.answer.context = some context) (unnamed : first.answer.recipient = none)
    (missing : ¬first.after.Holds context keyId) {nested : Exchange behaviour}
    (raised : nested = .nested behaviour context keyId
      (first.after.enroll ref (endpoint.byGroup ref groupId) context)) :
    Asks behaviour ref groupId keyId endpoint first (some nested)
      (match nested.answer.recipient <|> nested.after.recipientRef? context keyId with
        | some recipient => .resolved context recipient
        | none => unresolved (nested.answer.status <|> first.answer.status))
      nested.after where
  toOpens := opens
  further_iff := iff_of_true rfl ⟨context, supplied, unnamed, missing⟩
  further_raised other member := by
    cases member
    refine ⟨context, supplied, ?_, ?_, ?_⟩
    · rw [enrolled_of_context supplied, raised]
      rfl
    · rw [raised]
      exact congrArg Hosted.channel (enroll_hosted _ context)
    · rw [raised, Exchange.nested, Exchange.of]
      simp only [enroll_context]
  unresolved_iff status := by
    simp only [supplied, reduceCtorEq, false_and, false_or, Option.some.injEq, exists_and_left,
      exists_eq_left']
    rw [← and_assoc, ← Exchange.finds_nothing_iff]
    cases nested.answer.recipient <|> nested.after.recipientRef? context keyId with
    | none =>
      simp [unresolved, unauthorized, eq_comm]
    | some recipient => simp
  resolved_iff other found := by
    rw [supplied, Option.some.injEq, Option.getD_some]
    constructor
    · intro answered
      split at answered
      · rename_i recipient finds
        cases answered
        exact ⟨rfl, Exchange.finds_iff.mp finds⟩
      · cases answered
    · rintro ⟨rfl, finds⟩
      rw [Exchange.finds_iff.mpr finds]
  leaves := rfl

end Answers

theorem asks_of_missed (missed : ∀ context ∈ endpoint.registered ref,
    ¬((endpoint.context context).groupId = groupId ∧ endpoint.Holds context keyId)) :
    ∃ first further, Asks behaviour ref groupId keyId endpoint first further
      (resolve behaviour ref groupId keyId endpoint).1
      (resolve behaviour ref groupId keyId endpoint).2 := by
  have resolved := @resolve_of_missed _ _ behaviour _ _ _ _ missed
  let first := Exchange.of behaviour (endpoint.registry ref).channel
    (missEvent groupId keyId (endpoint.byGroup ref groupId)) endpoint
  have opens : Opens behaviour ref groupId keyId endpoint first :=
    ⟨⟨rfl, rfl⟩, _, fun _ => head?_byGroup_eq_some, missEvent_eq groupId keyId endpoint⟩
  change _ = match first.answer.context with
    | none => _
    | some context => _ at resolved
  cases supplied : first.answer.context with
  | none =>
    rw [supplied] at resolved
    rw [resolved]
    exact ⟨first, none, opens.asks_of_no_context supplied⟩
  | some context =>
    rw [supplied] at resolved
    dsimp only at resolved
    have same : (first.after.enroll ref (endpoint.byGroup ref groupId) context).recipientRef?
        context keyId = first.after.recipientRef? context keyId := by
      rw [recipientRef?, enroll_context, recipientRef?]
    cases finds : first.answer.recipient <|> first.after.recipientRef? context keyId with
    | some recipient =>
      rw [← same] at finds
      rw [resolved, resolveIn_of_found finds]
      rw [same] at finds
      exact ⟨first, none, opens.asks_of_finds supplied (Exchange.finds_iff.mp finds)⟩
    | none =>
      obtain ⟨unnamed, missing⟩ := Exchange.finds_nothing_iff.mp finds
      rw [← same] at finds
      rw [resolved, resolveIn_of_missing finds]
      exact ⟨first, some _, opens.asks_of_nested supplied unnamed missing rfl⟩

/-- A lookup finds the earliest registered context of the group that holds the entity, and asks
nobody. -/
theorem resolve_of_holder (behaviour : Behaviour Handler Application)
    (member : context ∈ endpoint.registered ref)
    (group : (endpoint.context context).groupId = groupId)
    (holds : endpoint.Holds context keyId) :
    ∃ context, Earliest (endpoint.registered ref)
        (fun other => (endpoint.context other).groupId = groupId ∧ endpoint.Holds other keyId)
        context ∧
      resolve behaviour ref groupId keyId endpoint =
        (.resolved context ⟨context, .recipient keyId⟩, endpoint) := by
  have decides (other : ContextRef) : decide ((endpoint.context other).groupId = groupId ∧
      ((endpoint.context other).recipient? keyId).isSome) ↔
        (endpoint.context other).groupId = groupId ∧ endpoint.Holds other keyId := by
    rw [decide_eq_true_eq, isSome_recipient?_iff]
  obtain ⟨earliest, found⟩ : ∃ earliest, (endpoint.registered ref).find? (fun other =>
      (endpoint.context other).groupId = groupId ∧
        ((endpoint.context other).recipient? keyId).isSome) = some earliest := by
    rw [← Option.isSome_iff_exists, List.find?_isSome]
    exact ⟨context, member, (decides context).mpr ⟨group, holds⟩⟩
  refine ⟨earliest, (find?_eq_some_iff_earliest decides).mp found, ?_⟩
  rw [resolve_eq]
  dsimp only
  rw [firstHolding_byGroup, found, Option.map_some]

/-- What a lookup does. If a registered context of the group holds the entity, it finds the earliest
one with the entity, raises nothing and leaves all as it was. Otherwise it asks the handlers, once
or twice, and its answer depends on the events that came back. -/
theorem resolve_decides (behaviour : Behaviour Handler Application) (ref : RegistryRef)
    (groupId : Option Bytes) (keyId : Bytes) (endpoint : Endpoint Handler Application) :
    let holder : ContextRef → Prop := fun context =>
      (endpoint.context context).groupId = groupId ∧ endpoint.Holds context keyId
    ((∃ context ∈ endpoint.registered ref, holder context) →
      ∃ context, Earliest (endpoint.registered ref) holder context ∧
        resolve behaviour ref groupId keyId endpoint =
          (.resolved context ⟨context, .recipient keyId⟩, endpoint)) ∧
    ((¬∃ context ∈ endpoint.registered ref, holder context) →
      ∃ first further, Asks behaviour ref groupId keyId endpoint first further
        (resolve behaviour ref groupId keyId endpoint).1
        (resolve behaviour ref groupId keyId endpoint).2) := by
  intro holder
  constructor
  · rintro ⟨context, member, group, holds⟩
    exact resolve_of_holder behaviour member group holds
  · intro missed
    exact asks_of_missed fun context member holds => missed ⟨context, member, holds⟩

/-- A registered context of the group holds one entity and not the other. The first is found. For
the second, a handler of the registry and a handler of the context are asked, and the status of the
latter wins. -/
theorem resolve_decides_nested :
    let annotating : Behaviour UInt8 Unit := fun status event =>
      return { event with status := some status }
    let empty : Endpoint UInt8 Unit := {
      counters := [0], channels := [{ handlers := [(0, 0x84)], issued := 1 }]
      registries := [{ counter := ⟨0⟩, channel := ⟨0⟩ }], application := () }
    let endpoint := (subscribe ⟨1⟩ 0x85
      (deriveInto ⟨0⟩ { secret := [1], idContext := some [7] } [] [1] empty).2).2
    resolve annotating ⟨0⟩ (some [7]) [1] endpoint =
        (.resolved ⟨0⟩ ⟨⟨0⟩, .recipient [1]⟩, endpoint) ∧
      (resolve annotating ⟨0⟩ (some [7]) [9] endpoint).1 = .unresolved 0x85 ∧
      ∃ first nested, Asks annotating ⟨0⟩ (some [7]) [9] endpoint first (some nested)
          (.unresolved 0x85) (resolve annotating ⟨0⟩ (some [7]) [9] endpoint).2 ∧
        first.channel = ⟨0⟩ ∧ first.event.code = .unknownKey ∧ nested.channel = ⟨1⟩ := by
  intro annotating empty endpoint
  have registered : endpoint.registered ⟨0⟩ = [⟨0⟩] := by decide +kernel
  have group : (endpoint.context ⟨0⟩).groupId = some [7] := by decide +kernel
  have holds : endpoint.Holds ⟨0⟩ [1] := (isSome_recipient?_iff _ _).mp (by decide +kernel)
  have lacks : ¬endpoint.Holds ⟨0⟩ [9] := by
    rw [← isSome_recipient?_iff]
    decide +kernel
  have answer : (resolve annotating ⟨0⟩ (some [7]) [9] endpoint).1 = .unresolved 0x85 := by
    decide +kernel
  refine ⟨?_, answer, ?_⟩
  · obtain ⟨context, ⟨front, back, split, -⟩, found⟩ :=
      (resolve_decides annotating ⟨0⟩ (some [7]) [1] endpoint).1
        ⟨⟨0⟩, by rw [registered]; exact List.mem_singleton_self _, group, holds⟩
    have member : context ∈ endpoint.registered ⟨0⟩ := by
      rw [split]
      exact List.mem_append_right _ List.mem_cons_self
    rw [registered, List.mem_singleton] at member
    rw [found, member]
  · obtain ⟨first, further, asks⟩ :=
      (resolve_decides annotating ⟨0⟩ (some [7]) [9] endpoint).2 (by
        rintro ⟨context, member, -, held⟩
        rw [registered, List.mem_singleton] at member
        subst member
        exact lacks held)
    obtain ⟨known, earliest, event⟩ := asks.first_event
    have named : known = some ⟨0⟩ :=
      (earliest ⟨0⟩).mpr ⟨[], [], registered, group, List.forall_mem_nil _⟩
    have channel : (endpoint.registry ⟨0⟩).channel = ⟨0⟩ := by decide +kernel
    have handlers : (endpoint.channel ⟨0⟩).handlers = [(0, 0x84)] := by decide +kernel
    -- the handler of the registry sets the status and leaves the endpoint as it is
    have raised := first.raised
    rw [asks.first_raised.1, asks.first_raised.2, channel, event, named, raise, Action.bind_apply,
      Action.get_apply] at raised
    dsimp only at raised
    rw [handlers] at raised
    obtain ⟨answered, left⟩ := Prod.mk.inj raised
    have nestedRaised : further.isSome := asks.further_iff.mpr
      ⟨⟨0⟩, congrArg Event.context answered.symm, congrArg Event.recipient answered.symm,
        by rw [← left]; exact lacks⟩
    obtain ⟨nested, rfl⟩ := Option.isSome_iff_exists.mp nestedRaised
    obtain ⟨context, supplied, -, nestedChannel, -⟩ := asks.further_raised nested rfl
    rw [← answered] at supplied
    cases supplied
    refine ⟨first, nested, ?_, ?_, ?_, ?_⟩
    · rw [← answer]
      exact asks
    · rw [asks.first_raised.2, channel]
    · rw [event, if_neg]
      rintro ⟨-, others⟩
      exact others ⟨0⟩ (by rw [registered]; exact List.mem_singleton_self _) group
    · rw [nestedChannel, ← left]
      decide +kernel

end Endpoint

end Oscore
