/-
This file says what holds of every context that can be come by: its sender was
derived from its keying for the identifier that it carries, its sequence number
stays in its limits, and every recipient has a window. Derivation, duplication
and every operation keep this, also between the two members of a group, whose
common context has keying of its own.
-/

import Oscore.InputParameters
import Oscore.Proofs.Operation

namespace Oscore

/-! ### Sound contexts -/

/-- What every context keeps, relative to its resolved keying. -/
structure SecurityContext.Sound (context : SecurityContext) (keying : ResolvedKeying) : Prop where
  resolved : context.keying.resolve = .ok keying
  algorithm_eq : context.algorithm = keying.aead
  derived : context.sender.DerivedBy keying
  bounded : context.sender.Bounded
  windows : ∀ entity ∈ context.recipients, entity.Guarded

theorem Entity.DerivedBy.of_evolves {before after : Entity} {keying : ResolvedKeying}
    (derived : before.DerivedBy keying) (evolves : before.Evolves after) :
    after.DerivedBy keying where
  id_fits := by rw [evolves.id_eq]; exact derived.id_fits
  key_eq := by rw [evolves.key_eq, evolves.id_eq]; exact derived.key_eq
  baseIv_eq := by rw [evolves.baseIv_eq, evolves.id_eq]; exact derived.baseIv_eq

namespace SecurityContext

variable {context before later : SecurityContext} {keying : ResolvedKeying}

/-! ### Changes keep contexts sound -/

theorem windows_setRecipient {next : Entity} (guarded : next.Guarded)
    (windows : ∀ entity ∈ context.recipients, entity.Guarded) :
    ∀ entity ∈ (context.setRecipient next).recipients, entity.Guarded := by
  intro entity member
  obtain ⟨other, there, rfl⟩ := List.mem_map.mp member
  split
  · exact guarded
  · exact windows other there

theorem Sound.setEntity (sound : context.Sound keying) {place : Place} {entity next : Entity}
    (found : context.entity? place = some entity) (evolves : entity.Evolves next) :
    (context.setEntity place next).Sound keying := by
  cases place with
  | sender generation =>
    rw [SecurityContext.setEntity]
    split
    · rename_i current
      have same : context.sender = entity := by
        rw [current] at found
        exact Option.some.inj (context.entity?_senderPlace.symm.trans found)
      subst same
      exact ⟨sound.resolved, sound.algorithm_eq, sound.derived.of_evolves evolves,
        evolves.bounded sound.bounded, sound.windows⟩
    · exact ⟨sound.resolved, sound.algorithm_eq, sound.derived, sound.bounded, sound.windows⟩
  | recipient id =>
    have guarded := evolves.guarded (sound.windows entity (mem_of_recipient? found))
    exact ⟨sound.resolved, sound.algorithm_eq, sound.derived, sound.bounded,
      windows_setRecipient guarded sound.windows⟩

theorem Sound.replaceSender (sound : before.Sound keying) {id : Bytes} {key : SigningKey}
    (replaced : before.replaceSender id key = .ok later) : later.Sound keying := by
  obtain ⟨-, -, -, other, resolved, fits, rfl⟩ := replaceSender_eq_ok.mp replaced
  cases sound.resolved.symm.trans resolved
  obtain ⟨maximum, interval, -⟩ := Keying.limits_of_resolve resolved
  exact ⟨resolved, sound.algorithm_eq, ⟨fits, rfl, rfl⟩,
    ⟨Nat.zero_le _, maximum, interval⟩, sound.windows⟩

theorem Sound.changes (sound : before.Sound keying) {forgets : Place → Prop}
    (changes : before.Changes forgets later) :
    later.Sound keying := by
  cases changes with
  | nothing => exact sound
  | entity found evolves => exact sound.setEntity found evolves
  | member added =>
    obtain ⟨-, -, other, resolved, -, rfl⟩ := addRecipient_eq_ok.mp added
    refine ⟨sound.resolved, sound.algorithm_eq, sound.derived, sound.bounded, ?_⟩
    intro entity member
    rcases List.mem_append.mp member with old | new
    · exact sound.windows entity old
    · rw [List.mem_singleton.mp new]
      exact ⟨_, rfl, (Keying.limits_of_resolve resolved).2.2⟩
  | sender replaced => exact sound.replaceSender replaced

theorem Sound.next (sound : context.Sound keying) (operation : Operation) :
    (operation.next context).Sound keying :=
  sound.changes (operation.changes_next context)

theorem Sound.after (sound : context.Sound keying) (operations : List Operation) :
    (context.after operations).Sound keying := by
  induction operations generalizing context with
  | nil => exact sound
  | cons operation rest inductionHypothesis => exact inductionHypothesis (sound.next operation)

/-! ### Derivations make sound contexts -/

theorem derive_eq_ok {keying : Keying} {sender recipient : Bytes} {number : Nat} :
    derive keying sender recipient number = .ok context ↔
      ∃ resolved, keying.resolve = .ok resolved ∧
        sender.length ≤ resolved.aead.identifierCapacity ∧
        recipient.length ≤ resolved.aead.identifierCapacity ∧
        context = {
          number, keying
          algorithm := resolved.aead
          countersigning := none
          sender := resolved.fresh sender none
          formerSenders := []
          recipients := [resolved.fresh recipient (some (.empty 0 resolved.limits.window))] } := by
  simp only [derive, prepare, bind_assoc, pure_bind, bind_eq_ok, pure_eq_ok]
  refine exists_congr fun resolved => and_congr_right fun known => ?_
  simp only [ResolvedKeying.entity_eq_ok, ResolvedKeying.window_sender,
    ResolvedKeying.window_recipient (Keying.limits_of_resolve known).2.2, Except.ok.injEq,
    exists_eq_left']
  constructor
  · rintro ⟨_, ⟨senderFits, rfl⟩, _, ⟨recipientFits, rfl⟩, rfl⟩
    exact ⟨senderFits, recipientFits, rfl⟩
  · rintro ⟨senderFits, recipientFits, rfl⟩
    exact ⟨_, ⟨senderFits, rfl⟩, _, ⟨recipientFits, rfl⟩, rfl⟩

theorem sound_of_derive {keying : Keying} {sender recipient : Bytes} {number : Nat}
    (derived : derive keying sender recipient number = .ok context) :
    ∃ resolved, context.Sound resolved := by
  obtain ⟨resolved, known, senderFits, -, rfl⟩ := derive_eq_ok.mp derived
  obtain ⟨maximum, interval, window⟩ := Keying.limits_of_resolve known
  refine ⟨resolved, known, rfl, ⟨senderFits, rfl, rfl⟩,
    ⟨Nat.zero_le _, maximum, interval⟩, ?_⟩
  intro entity member
  rw [List.mem_singleton.mp member]
  exact ⟨_, rfl, window⟩

theorem firstRepeated_eq_none {Element : Type} [DecidableEq Element]
    {seen elements : List Element} :
    firstRepeated seen elements = none ↔
      elements.Nodup ∧ ∀ element ∈ elements, element ∉ seen := by
  induction elements generalizing seen with
  | nil => simp [firstRepeated]
  | cons element rest inductionHypothesis =>
    rw [firstRepeated]
    split
    · rename_i there
      constructor
      · intro equal
        cases equal
      · rintro ⟨-, unseen⟩
        exact absurd there (unseen element List.mem_cons_self)
    · rename_i unseen
      rw [inductionHypothesis, List.nodup_cons, List.forall_mem_cons]
      constructor
      · rintro ⟨distinct, others⟩
        refine ⟨⟨fun again => others element again List.mem_cons_self, distinct⟩, unseen, ?_⟩
        exact fun other member seen => others other member (List.mem_cons_of_mem _ seen)
      · rintro ⟨⟨once, distinct⟩, -, others⟩
        refine ⟨distinct, ?_⟩
        intro other member seen
        rcases List.mem_cons.mp seen with rfl | before
        · exact once member
        · exact others other member before

theorem firstRepeated_nil_eq_none {ids : List Bytes} :
    firstRepeated [] ids = none ↔ ids.Nodup := by
  rw [firstRepeated_eq_none]
  exact and_iff_left fun _ _ => List.not_mem_nil

theorem deriveGroup_eq_ok {parameters : GroupParameters} {number : Nat} :
    deriveGroup parameters number = .ok context ↔
      ∃ members, parameters.members = .ok members ∧
        firstRepeated [] (members.map Prod.fst) = none ∧
      ∃ algorithm, SignatureAlgorithm.ofIdentifier parameters.algorithm = .ok algorithm ∧
        parameters.key.fits algorithm ∧
      ∃ resolved, parameters.keying.resolve = .ok resolved ∧
        parameters.sender.length ≤ resolved.aead.identifierCapacity ∧
      ∃ recipients,
        (members.mapM fun member => resolved.member algorithm member.1 member.2) = .ok recipients ∧
        context = {
          number, recipients
          keying := parameters.keying
          algorithm := resolved.aead
          countersigning := some { algorithm, capabilities := parameters.capabilities algorithm }
          sender := { resolved.fresh parameters.sender none with
            signingKey := some parameters.key }
          formerSenders := [] } := by
  rw [deriveGroup, prepareGroup, bind_assoc, bind_eq_ok]
  refine exists_congr fun members => and_congr_right fun _ => ?_
  cases firstRepeated [] (members.map Prod.fst) with
  | some id => simp [-bind_pure_comp, bind_eq_ok, throw_bind]
  | none =>
    simp only [bind_assoc, throw_bind, refuse_eq_ok, bind_eq_ok, pure_eq_ok, mapError_eq_ok,
      ResolvedKeying.entity_eq_ok, ResolvedKeying.window_sender, Except.ok.injEq,
      exists_eq_left', Bool.not_eq_true', Bool.not_eq_false, true_and]
    refine exists_congr fun algorithm => and_congr_right fun _ => ?_
    constructor
    · rintro ⟨_, ⟨serves, resolved, known, _, ⟨fits, rfl⟩, recipients, mapped, rfl⟩, rfl⟩
      exact ⟨serves, resolved, known, fits, recipients, mapped, rfl⟩
    · rintro ⟨serves, resolved, known, fits, recipients, mapped, rfl⟩
      exact ⟨_, ⟨serves, resolved, known, _, ⟨fits, rfl⟩, recipients, mapped, rfl⟩, rfl⟩

end SecurityContext

namespace GroupParameters

/-- Whether parameters stand for a group of this algorithm, with this keying and these other
members, all of whom are admitted under identifiers of their own. -/
structure Gives (parameters : GroupParameters) (algorithm : SignatureAlgorithm)
    (keying : ResolvedKeying) (members : List (Bytes × SigningKey)) : Prop where
  members_eq : parameters.members = .ok members
  algorithm_known : SignatureAlgorithm.ofIdentifier parameters.algorithm = .ok algorithm
  resolves : parameters.keying.resolve = .ok keying
  sender_admitted : keying.Admits algorithm (parameters.sender, parameters.key)
  members_admitted : ∀ member ∈ members, keying.Admits algorithm member
  distinct : (members.map Prod.fst).Nodup

/-- The context of a group in which nothing was sent or accepted yet. -/
def context (parameters : GroupParameters) (number : Nat) (algorithm : SignatureAlgorithm)
    (keying : ResolvedKeying) (members : List (Bytes × SigningKey)) : SecurityContext where
  number
  keying := parameters.keying
  algorithm := keying.aead
  countersigning := some { algorithm, capabilities := parameters.capabilities algorithm }
  sender := { keying.fresh parameters.sender none with signingKey := some parameters.key }
  formerSenders := []
  recipients := members.map keying.newMember

theorem ids_context (parameters : GroupParameters) (number : Nat) (algorithm : SignatureAlgorithm)
    (keying : ResolvedKeying) (members : List (Bytes × SigningKey)) :
    (parameters.context number algorithm keying members).recipients.map Entity.id =
      members.map Prod.fst :=
  keying.map_id_newMember members

end GroupParameters

namespace SecurityContext

variable {context : SecurityContext} {keying : ResolvedKeying}

/-- A group is derived exactly when the parameters stand for one. Its algorithm, its keying and its
members determine the context. -/
theorem deriveGroup_eq_ok_context {parameters : GroupParameters} {number : Nat} :
    deriveGroup parameters number = .ok context ↔
      ∃ algorithm keying members, parameters.Gives algorithm keying members ∧
        context = parameters.context number algorithm keying members := by
  simp only [deriveGroup_eq_ok, firstRepeated_nil_eq_none]
  constructor
  · rintro ⟨members, given, distinct, algorithm, known, fits, keying, resolves, short, recipients,
      mapped, rfl⟩
    have window := (Keying.limits_of_resolve resolves).2.2
    obtain ⟨admitted, rfl⟩ := (mapM_member_eq_ok window).mp mapped
    exact ⟨algorithm, keying, members, ⟨given, known, resolves, ⟨fits, short⟩, admitted, distinct⟩,
      rfl⟩
  · rintro ⟨algorithm, keying, members, gives, rfl⟩
    have window := (Keying.limits_of_resolve gives.resolves).2.2
    exact ⟨members, gives.members_eq, gives.distinct, algorithm, gives.algorithm_known,
      gives.sender_admitted.key_fits, keying, gives.resolves, gives.sender_admitted.id_fits, _,
      (mapM_member_eq_ok window).mpr ⟨gives.members_admitted, rfl⟩, rfl⟩

theorem sound_of_deriveGroup {parameters : GroupParameters} {number : Nat}
    (derived : deriveGroup parameters number = .ok context) :
    ∃ resolved, context.Sound resolved := by
  obtain ⟨algorithm, keying, members, gives, rfl⟩ := deriveGroup_eq_ok_context.mp derived
  obtain ⟨maximum, interval, window⟩ := Keying.limits_of_resolve gives.resolves
  refine ⟨keying, gives.resolves, rfl, ⟨gives.sender_admitted.id_fits, rfl, rfl⟩,
    ⟨Nat.zero_le _, maximum, interval⟩, ?_⟩
  intro entity recipient
  obtain ⟨member, -, rfl⟩ := List.mem_map.mp recipient
  exact ⟨_, rfl, window⟩

/-- A seed of the right length makes a key for groups that sign with EdDSA. -/
theorem exists_ofSeed {seed : Bytes} (long : seed.length = 32) :
    ∃ key, SigningKey.ofSeed seed = .ok key ∧ key.fits .edDsa := by
  rw [SigningKey.ofSeed, if_pos long]
  exact ⟨_, rfl, rfl⟩

/-- A group of one member can be derived. Its member can take any other identifier and add any
member. -/
theorem deriveGroup_alone {keying : Keying} {resolved : ResolvedKeying} {sender : Bytes}
    {key : SigningKey} (known : keying.resolve = .ok resolved)
    (short : sender.length ≤ resolved.aead.identifierCapacity) (fits : key.fits .edDsa)
    (number : Nat) :
    ∃ context, deriveGroup { keying, sender, key, algorithm := -8 } number = .ok context ∧
      context.Sound resolved ∧
      context.sender = { resolved.fresh sender none with signingKey := some key } ∧
      context.formerSenders = [] ∧ context.recipients = [] ∧
      ∀ other : Bytes, other.length ≤ resolved.aead.identifierCapacity →
        (sender ≠ other → ∃ away, context.replaceSender other key = .ok away) ∧
          ∃ larger, context.addRecipient other key = .ok larger := by
  obtain ⟨context, derived, sender, former, recipients, signed, sameKeying⟩ : ∃ context,
      deriveGroup { keying, sender, key, algorithm := -8 } number = .ok context ∧
      context.sender = { resolved.fresh sender none with signingKey := some key } ∧
      context.formerSenders = [] ∧ context.recipients = [] ∧
      context.signatureAlgorithm = some .edDsa ∧ context.keying = keying :=
    ⟨_, deriveGroup_eq_ok.mpr
      ⟨[], rfl, rfl, .edDsa, rfl, fits, resolved, known, short, [], rfl, rfl⟩,
      rfl, rfl, rfl, rfl, rfl⟩
  obtain ⟨_, sound⟩ := sound_of_deriveGroup derived
  have contextKnown : context.keying.resolve = .ok resolved := by rw [sameKeying, known]
  cases sound.resolved.symm.trans contextKnown
  refine ⟨context, derived, sound, sender, former, recipients, ?_⟩
  intro other otherShort
  have free : context.recipient? other = none := by
    rw [recipient?, recipients]
    rfl
  constructor
  · intro different
    have differs : context.sender.id ≠ other := by
      rw [sender]
      exact different
    exact ⟨_, replaceSender_eq_ok.mpr
      ⟨⟨.edDsa, signed, fits⟩, differs, free, resolved, contextKnown, otherShort, rfl⟩⟩
  · exact ⟨_, addRecipient_eq_ok.mpr
      ⟨⟨.edDsa, signed, fits⟩, free, resolved, contextKnown, otherShort, rfl⟩⟩

/-- What the entities of a pair are derived from, each from its own group key. -/
def pairResolved (context : SecurityContext) (shared secret : Bytes) : ResolvedKeying where
  secret
  salt := shared
  idContext := context.groupId
  aead := context.algorithm
  kdf := .sha256
  limits := context.keying.limits

theorem pairEntity_eq_ok {shared : Bytes} {entity made : Entity} {role : Role} :
    context.pairEntity shared entity role = .ok made ↔
      entity.id.length ≤ context.algorithm.identifierCapacity ∧
        ∃ window, (context.pairResolved shared entity.key).window role = .ok window ∧
          made = (context.pairResolved shared entity.key).fresh entity.id window :=
  ResolvedKeying.entity_eq_ok

theorem derivePair_eq_ok {pair : SecurityContext} {id : Bytes} {number : Nat}
    (window : 0 < context.keying.limits.window) :
    context.derivePair id number = .ok pair ↔
      ∃ member, context.recipient? id = some member ∧
      ∃ localKey memberKey, context.sender.signingKey = some localKey ∧
        member.signingKey = some memberKey ∧
      ∃ shared, localKey.agree memberKey pairwiseSecretLength = .ok shared ∧
        context.sender.id.length ≤ context.algorithm.identifierCapacity ∧
        member.id.length ≤ context.algorithm.identifierCapacity ∧
        pair = {
          number
          keying := context.pairKeying shared
          algorithm := context.algorithm
          countersigning := none
          sender := (context.pairResolved shared context.sender.key).fresh context.sender.id none
          formerSenders := []
          recipients := [(context.pairResolved shared member.key).fresh member.id
            (some (.empty 0 context.keying.limits.window))] } := by
  simp only [SecurityContext.derivePair, preparePair, bind_assoc]
  rw [bind_eq_ok]
  simp only [recipient_eq_ok]
  refine exists_congr fun member => and_congr_right fun _ => ?_
  cases context.sender.signingKey with
  | none => simp [-bind_pure_comp, throw_bind]
  | some localKey =>
    cases member.signingKey with
    | none => simp [-bind_pure_comp, throw_bind]
    | some memberKey =>
      have memberWindow (shared : Bytes) : (context.pairResolved shared member.key).window
          .recipient = .ok (some (.empty 0 context.keying.limits.window)) :=
        ResolvedKeying.window_recipient window
      simp only [bind_assoc, pure_bind, bind_eq_ok, mapError_eq_ok, pure_eq_ok, pairEntity_eq_ok,
        memberWindow, ResolvedKeying.window_sender, Option.some.injEq, Except.ok.injEq,
        exists_eq_left']
      constructor
      · rintro ⟨shared, agreed, _, ⟨senderFits, rfl⟩, _, ⟨memberFits, rfl⟩, rfl⟩
        exact ⟨localKey, memberKey, rfl, rfl, shared, agreed, senderFits, memberFits, rfl⟩
      · rintro ⟨_, _, rfl, rfl, shared, agreed, senderFits, memberFits, rfl⟩
        exact ⟨shared, agreed, _, ⟨senderFits, rfl⟩, _, ⟨memberFits, rfl⟩, rfl⟩

theorem Sound.window_pos (sound : context.Sound keying) : 0 < context.keying.limits.window :=
  (Limits.check_eq_ok.mp (Keying.resolve_eq_ok.mp sound.resolved).1).2.2

theorem Sound.derivePair (sound : context.Sound keying) {pair : SecurityContext} {id : Bytes}
    {number : Nat} (derived : context.derivePair id number = .ok pair) :
    ∃ resolved, pair.Sound resolved := by
  obtain ⟨checked, -, -, -, -, -, limits⟩ := Keying.resolve_eq_ok.mp sound.resolved
  obtain ⟨maximum, interval, window⟩ := Limits.check_eq_ok.mp checked
  obtain ⟨member, -, _, _, -, -, shared, -, senderFits, -, rfl⟩ :=
    (derivePair_eq_ok window).mp derived
  have known : (context.pairKeying shared).resolve =
      .ok (context.pairResolved shared context.sender.key) :=
    Keying.resolve_eq_ok.mpr ⟨checked, context.algorithm.ofIdentifier_identifier, rfl, rfl, rfl,
      rfl, rfl⟩
  refine ⟨_, known, rfl, ⟨senderFits, rfl, rfl⟩, ⟨Nat.zero_le _, maximum, interval⟩, ?_⟩
  intro entity member
  rw [List.mem_singleton.mp member]
  exact ⟨_, rfl, window⟩

theorem Sound.duplicate (sound : context.Sound keying) : context.duplicate.Sound keying where
  resolved := sound.resolved
  algorithm_eq := sound.algorithm_eq
  derived := ⟨sound.derived.id_fits, sound.derived.key_eq, sound.derived.baseIv_eq⟩
  bounded := ⟨sound.bounded.sequence_le, sound.bounded.maximum_le, sound.bounded.interval_pos⟩
  windows := by
    intro entity member
    obtain ⟨other, there, rfl⟩ := List.mem_map.mp member
    obtain ⟨window, found, positive⟩ := sound.windows other there
    exact ⟨window.cleared, by rw [Entity.duplicate, found]; rfl, positive⟩

/-! ### Reachable contexts -/

/-- The contexts that derivations, copies and operations lead to. -/
inductive Reachable : SecurityContext → Prop
  | derive {keying : Keying} {sender recipient : Bytes} {number : Nat} {context : SecurityContext}
      (derived : SecurityContext.derive keying sender recipient number = .ok context) :
      Reachable context
  | deriveGroup {parameters : GroupParameters} {number : Nat} {context : SecurityContext}
      (derived : SecurityContext.deriveGroup parameters number = .ok context) : Reachable context
  | derivePair {group pair : SecurityContext} {id : Bytes} {number : Nat}
      (reachable : Reachable group) (derived : group.derivePair id number = .ok pair) :
      Reachable pair
  | duplicate {context : SecurityContext} (reachable : Reachable context) :
      Reachable context.duplicate
  | operation {context : SecurityContext} (reachable : Reachable context)
      (operation : Operation) : Reachable (operation.next context)

theorem Reachable.deriveFromParameters {parameters : InputParameters} {role : EndpointRole}
    {nonces : Option (Bytes × Bytes)} {limits : Limits} {number : Nat}
    (derived : parameters.derive role nonces limits number = .ok context) :
    context.Reachable := by
  cases role with
  | client => exact .derive derived
  | server => exact .derive derived

theorem Reachable.sound (reachable : context.Reachable) : ∃ keying, context.Sound keying := by
  induction reachable with
  | derive derived => exact sound_of_derive derived
  | deriveGroup derived => exact sound_of_deriveGroup derived
  | derivePair _ derived inductionHypothesis =>
    obtain ⟨keying, sound⟩ := inductionHypothesis
    exact sound.derivePair derived
  | duplicate _ inductionHypothesis =>
    obtain ⟨keying, sound⟩ := inductionHypothesis
    exact ⟨keying, sound.duplicate⟩
  | operation _ operation inductionHypothesis =>
    obtain ⟨keying, sound⟩ := inductionHypothesis
    exact ⟨keying, sound.next operation⟩

theorem Reachable.window_pos (reachable : context.Reachable) :
    0 < context.keying.limits.window := by
  obtain ⟨_, sound⟩ := reachable.sound
  exact sound.window_pos

theorem Reachable.after (reachable : context.Reachable) (operations : List Operation) :
    (context.after operations).Reachable := by
  induction operations generalizing context with
  | nil => exact reachable
  | cons operation rest inductionHypothesis =>
    exact inductionHypothesis (reachable.operation operation)

end SecurityContext

end Oscore
