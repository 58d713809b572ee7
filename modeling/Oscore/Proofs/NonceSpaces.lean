/-
This file says which entities have a nonce in common. All entities of a context
are derived from one keying, so one IV stands behind their nonces, and the
identifier of an entity determines all of them. Entities of different
identifiers have no nonce in common. It does not matter for this what the
common IV is: the derivation of bytes may give anything of the right length.
-/

import Oscore.Proofs.NonceLayout
import Oscore.Proofs.Reachable

namespace Oscore

/-! ### Two entities -/

namespace Entity

/-- Two entities without a nonce in common: every two partial IVs that messages may carry give
nonces, and different ones. -/
def NoncesApart (first second : Entity) : Prop :=
  ∀ partialIv otherIv, PartialIv.allowed partialIv → PartialIv.allowed otherIv →
    ∃ nonce otherNonce, first.nonce partialIv = .ok nonce ∧
      second.nonce otherIv = .ok otherNonce ∧ nonce ≠ otherNonce

theorem nonce_congr {first second : Entity} (same : first.baseIv = second.baseIv)
    (partialIv : Bytes) : first.nonce partialIv = second.nonce partialIv := by
  rw [nonce, nonce, same]

/-- Entities over one common IV have no nonce in common exactly when their identifiers differ. -/
theorem noncesApart_iff {first second : Entity} {common : Bytes}
    (folded : first.baseIv = foldIdentifier common first.id)
    (otherFolded : second.baseIv = foldIdentifier common second.id)
    (fits : first.id.length + identifierOverhead ≤ common.length)
    (otherFits : second.id.length + identifierOverhead ≤ common.length)
    (byte : common.length ≤ 256) :
    first.NoncesApart second ↔ first.id ≠ second.id := by
  constructor
  · intro apart sameId
    obtain ⟨nonce, otherNonce, made, otherMade, different⟩ := apart [0] [0] rfl rfl
    have sameIv : first.baseIv = second.baseIv := by rw [folded, otherFolded, sameId]
    rw [nonce_congr sameIv, otherMade] at made
    exact different (Except.ok.inj made).symm
  · intro different partialIv otherIv permitted otherPermitted
    obtain ⟨positive, short⟩ := PartialIv.allowed_iff.mp permitted
    obtain ⟨otherPositive, otherShort⟩ := PartialIv.allowed_iff.mp otherPermitted
    refine ⟨_, _, nonce_of_folded folded fits positive short,
      nonce_of_folded otherFolded otherFits otherPositive otherShort, ?_⟩
    intro same
    exact different ((xor_nonceLayout_inj fits otherFits byte short otherShort).mp same).1

theorem DerivedBy.noncesApart_iff {first second : Entity} {keying : ResolvedKeying}
    (derived : first.DerivedBy keying) (other : second.DerivedBy keying) :
    first.NoncesApart second ↔ first.id ≠ second.id := by
  have fits := AeadAlgorithm.fits_of_le derived.id_fits
  have otherFits := AeadAlgorithm.fits_of_le other.id_fits
  have byte := keying.aead.nonceLength_le_byte
  rw [← ResolvedKeying.length_commonIv] at fits otherFits byte
  exact Entity.noncesApart_iff derived.baseIv_eq other.baseIv_eq fits otherFits byte

/-- The IV of a derived entity tells its identifier. -/
theorem DerivedBy.baseIv_inj {first second : Entity} {keying : ResolvedKeying}
    (derived : first.DerivedBy keying) (other : second.DerivedBy keying) :
    first.baseIv = second.baseIv ↔ first.id = second.id := by
  constructor
  · intro sameIv
    refine Decidable.by_contra fun different => ?_
    obtain ⟨nonce, otherNonce, made, otherMade, distinct⟩ :=
      (derived.noncesApart_iff other).mpr different [0] [0] rfl rfl
    rw [nonce_congr sameIv, otherMade] at made
    exact distinct (Except.ok.inj made).symm
  · intro sameId
    rw [derived.baseIv_eq, other.baseIv_eq, sameId]

end Entity

/-! ### Any derivation of bytes -/

namespace ResolvedKeying

/-- The derivation of an entity, with another way to derive bytes. -/
def entityWith (keying : ResolvedKeying) (derive : Bytes → Purpose → Nat → Except Refusal Bytes)
    (id : Bytes) (role : Role) : Except Refusal Entity := do
  let capacity := keying.aead.identifierCapacity
  if capacity < id.length then throw (.identifierTooLong id.length capacity)
  let key ← derive id .key keying.aead.keyLength
  let common ← derive [] .iv keying.aead.nonceLength
  let window ← keying.window role
  return {
    id, key, window
    baseIv := foldIdentifier common id
    sequence := 0
    maximum := keying.limits.maximum
    interval := keying.limits.interval
    signingKey := none }

theorem entityWith_derive (keying : ResolvedKeying) (id : Bytes) (role : Role) :
    keying.entityWith keying.derive id role = keying.entity id role := rfl

variable {keying : ResolvedKeying} {derive : Bytes → Purpose → Nat → Except Refusal Bytes}

/-- What an entity keeps of its derivation. -/
theorem folded_of_entityWith {id : Bytes} {role : Role} {entity : Entity}
    (derived : keying.entityWith derive id role = .ok entity) :
    id.length ≤ keying.aead.identifierCapacity ∧ entity.id = id ∧
      ∃ common, derive [] .iv keying.aead.nonceLength = .ok common ∧
        entity.baseIv = foldIdentifier common entity.id := by
  simp only [entityWith, throw_bind, refuse_eq_ok, bind_eq_ok, pure_eq_ok, Nat.not_lt] at derived
  obtain ⟨fits, _, -, common, given, _, -, rfl⟩ := derived
  exact ⟨fits, rfl, common, given, rfl⟩

/-- Whatever the derivation of bytes gives, entities have no nonce in common exactly when their
identifiers differ. -/
theorem noncesApart_of_entityWith
    (full : ∀ common, derive [] .iv keying.aead.nonceLength = .ok common →
      common.length = keying.aead.nonceLength)
    {id otherId : Bytes} {role otherRole : Role} {first second : Entity}
    (derived : keying.entityWith derive id role = .ok first)
    (otherDerived : keying.entityWith derive otherId otherRole = .ok second) :
    first.NoncesApart second ↔ id ≠ otherId := by
  obtain ⟨fits, rfl, common, given, folded⟩ := folded_of_entityWith derived
  obtain ⟨otherFits, rfl, _, again, otherFolded⟩ := folded_of_entityWith otherDerived
  cases given.symm.trans again
  have room := AeadAlgorithm.fits_of_le fits
  have otherRoom := AeadAlgorithm.fits_of_le otherFits
  have byte := keying.aead.nonceLength_le_byte
  rw [← full common given] at room otherRoom byte
  exact Entity.noncesApart_iff folded otherFolded room otherRoom byte

end ResolvedKeying

namespace Keying

/-- Keying that is resolved derives an entity for every identifier that leaves six bytes of the
nonce free, and for no other. -/
theorem entity_isOk_iff {keying : Keying} {resolved : ResolvedKeying}
    (known : keying.resolve = .ok resolved) (id : Bytes) (role : Role) :
    (∃ entity, keying.entity id role = .ok entity) ↔
      id.length + identifierOverhead ≤ resolved.aead.nonceLength := by
  have window : ∃ window, resolved.window role = .ok window := by
    cases role with
    | sender => exact ⟨none, resolved.window_sender⟩
    | recipient => exact ⟨_, ResolvedKeying.window_recipient (limits_of_resolve known).2.2⟩
  simp only [entity, bind_eq_ok, known, Except.ok.injEq, exists_eq_left',
    ResolvedKeying.entity_eq_ok]
  constructor
  · rintro ⟨_, fits, -⟩
    exact AeadAlgorithm.fits_of_le fits
  · intro fits
    obtain ⟨window, made⟩ := window
    exact ⟨_, Nat.le_sub_of_add_le fits, window, made, rfl⟩

theorem noncesApart_of_entity {keying : Keying} {id otherId : Bytes}
    {role otherRole : Role} {first second : Entity} (derived : keying.entity id role = .ok first)
    (otherDerived : keying.entity otherId otherRole = .ok second) :
    first.NoncesApart second ↔ id ≠ otherId := by
  obtain ⟨resolved, known, made⟩ := bind_eq_ok.mp derived
  obtain ⟨_, again, otherMade⟩ := bind_eq_ok.mp otherDerived
  cases known.symm.trans again
  rw [← ResolvedKeying.entityWith_derive] at made otherMade
  refine ResolvedKeying.noncesApart_of_entityWith ?_ made otherMade
  intro common given
  cases given.symm.trans resolved.derive_iv
  exact resolved.length_commonIv

end Keying

namespace SecurityContext

variable {context before later : SecurityContext} {keying : ResolvedKeying}

/-! ### The entities of a context -/

/-- The senders that were replaced, the sender and the recipients. -/
def entities (context : SecurityContext) : List Entity :=
  context.formerSenders ++ context.sender :: context.recipients

theorem mem_entities_of_entity? {place : Place} {entity : Entity}
    (found : context.entity? place = some entity) : entity ∈ context.entities := by
  rw [entities, List.mem_append, List.mem_cons]
  cases place with
  | sender generation =>
    rcases List.mem_append.mp (List.mem_of_getElem? found) with former | current
    · exact Or.inl former
    · exact Or.inr (Or.inl (List.mem_singleton.mp current))
  | recipient id => exact Or.inr (Or.inr (mem_of_recipient? found))

/-- Setting an entity brings no other in. -/
theorem mem_entities_setEntity {place : Place} {next entity : Entity}
    (member : entity ∈ (context.setEntity place next).entities) :
    entity = next ∨ entity ∈ context.entities := by
  rw [entities, List.mem_append, List.mem_cons] at member ⊢
  cases place with
  | sender generation =>
    rw [setEntity] at member
    split at member
    · rcases member with former | same | recipient
      · exact Or.inr (Or.inl former)
      · exact Or.inl same
      · exact Or.inr (Or.inr (Or.inr recipient))
    · rcases member with former | other
      · exact (List.mem_or_eq_of_mem_set former).symm.imp_right Or.inl
      · exact Or.inr (Or.inr other)
  | recipient id =>
    rcases member with former | same | recipient
    · exact Or.inr (Or.inl former)
    · exact Or.inr (Or.inr (Or.inl same))
    · obtain ⟨other, there, rfl⟩ := List.mem_map.mp recipient
      split
      · exact Or.inl rfl
      · exact Or.inr (Or.inr (Or.inr there))

/-- What every entity has when it is derived and keeps, all entities of a context have after a
change if they had it before. -/
theorem Changes.forall_entities {forgets : Place → Prop} (changes : before.Changes forgets later)
    (resolved : before.keying.resolve = .ok keying) {property : Entity → Prop}
    (keeps : ∀ {entity next : Entity}, entity.Evolves next → property entity → property next)
    (begins : ∀ {id : Bytes}, id.length ≤ keying.aead.identifierCapacity →
      ∀ window key, property { keying.fresh id window with signingKey := key })
    (all : ∀ entity ∈ before.entities, property entity) :
    ∀ entity ∈ later.entities, property entity := by
  intro entity member
  cases changes with
  | nothing => exact all entity member
  | entity found evolves =>
    rcases mem_entities_setEntity member with rfl | old
    · exact keeps evolves (all _ (mem_entities_of_entity? found))
    · exact all entity old
  | member added =>
    -- the member is derived from the keying that all others are derived from
    obtain ⟨-, -, _, again, fits, rfl⟩ := addRecipient_eq_ok.mp added
    cases resolved.symm.trans again
    rw [entities, ← List.cons_append, ← List.append_assoc] at member
    rcases List.mem_append.mp member with old | new
    · exact all entity old
    · rw [List.mem_singleton.mp new]
      exact begins fits _ _
  | sender replaced =>
    obtain ⟨-, -, -, _, again, fits, rfl⟩ := replaceSender_eq_ok.mp replaced
    cases resolved.symm.trans again
    rw [entities, List.append_assoc, List.mem_append, List.singleton_append,
      List.mem_cons, List.mem_cons] at member
    -- a sender that was replaced before, the one replaced now, the new one, or a recipient
    rcases member with former | rfl | rfl | recipient
    · exact all entity (List.mem_append_left _ former)
    · exact all _ (List.mem_append_right _ List.mem_cons_self)
    · exact begins fits _ _
    · exact all entity (List.mem_append_right _ (List.mem_cons_of_mem _ recipient))

/-- A sound context whose entities are all derived from its keying. -/
structure Uniform (context : SecurityContext) (keying : ResolvedKeying) : Prop
    extends context.Sound keying where
  all_derived : ∀ entity ∈ context.entities, entity.DerivedBy keying

theorem Uniform.changes (uniform : before.Uniform keying) {forgets : Place → Prop}
    (changes : before.Changes forgets later) : later.Uniform keying :=
  ⟨uniform.toSound.changes changes,
    changes.forall_entities uniform.resolved (fun evolves derived => derived.of_evolves evolves)
      (fun fits _ _ => ⟨fits, rfl, rfl⟩) uniform.all_derived⟩

theorem Uniform.after (uniform : context.Uniform keying) (operations : List Operation) :
    (context.after operations).Uniform keying := by
  induction operations generalizing context with
  | nil => exact uniform
  | cons operation rest inductionHypothesis =>
    exact inductionHypothesis (uniform.changes (operation.changes_next context))

/-! ### Derived contexts -/

/-- The contexts that are derived for a sender, and for others whose messages it accepts. -/
inductive DerivedFor : Bytes → List Bytes → SecurityContext → Prop
  /-- From keying and two identifiers. -/
  | twoParty {keying : Keying} {sender recipient : Bytes} {number : Nat}
      {context : SecurityContext}
      (derived : SecurityContext.derive keying sender recipient number = .ok context) :
      DerivedFor sender [recipient] context
  /-- From the parameters of a client and a server, by the client. -/
  | client {parameters : InputParameters} {nonces : Option (Bytes × Bytes)} {limits : Limits}
      {number : Nat} {context : SecurityContext}
      (derived : parameters.derive .client nonces limits number = .ok context) :
      DerivedFor parameters.clientId [parameters.serverId] context
  /-- From the same parameters, by the server. -/
  | server {parameters : InputParameters} {nonces : Option (Bytes × Bytes)} {limits : Limits}
      {number : Nat} {context : SecurityContext}
      (derived : parameters.derive .server nonces limits number = .ok context) :
      DerivedFor parameters.serverId [parameters.clientId] context
  /-- From the parameters of a group. -/
  | group {parameters : GroupParameters} {members : List (Bytes × SigningKey)} {number : Nat}
      {context : SecurityContext} (given : parameters.members = .ok members)
      (derived : SecurityContext.deriveGroup parameters number = .ok context) :
      DerivedFor parameters.sender (members.map Prod.fst) context

/-- The entities that a derivation gives. -/
structure Starts (context : SecurityContext) (sender : Bytes) (others : List Bytes) : Prop where
  uniform : ∃ keying, context.Uniform keying
  sender_id : context.sender.id = sender
  recipient_ids : context.recipients.map Entity.id = others
  formerSenders_eq : context.formerSenders = []

theorem starts_of_derive {keying : Keying} {sender recipient : Bytes} {number : Nat}
    (derived : derive keying sender recipient number = .ok context) :
    context.Starts sender [recipient] := by
  obtain ⟨resolved, sound⟩ := sound_of_derive derived
  obtain ⟨_, known, senderFits, recipientFits, rfl⟩ := derive_eq_ok.mp derived
  cases sound.resolved.symm.trans known
  refine ⟨⟨resolved, sound, ?_⟩, rfl, rfl, rfl⟩
  intro entity member
  rcases List.mem_cons.mp member with rfl | recipient
  · exact ⟨senderFits, rfl, rfl⟩
  · rw [List.mem_singleton.mp recipient]
    exact ⟨recipientFits, rfl, rfl⟩

theorem starts_of_deriveGroup {parameters : GroupParameters}
    {members : List (Bytes × SigningKey)} {number : Nat} (given : parameters.members = .ok members)
    (derived : deriveGroup parameters number = .ok context) :
    context.Starts parameters.sender (members.map Prod.fst) := by
  obtain ⟨resolved, sound⟩ := sound_of_deriveGroup derived
  obtain ⟨algorithm, _, _, gives, rfl⟩ := deriveGroup_eq_ok_context.mp derived
  cases given.symm.trans gives.members_eq
  cases sound.resolved.symm.trans gives.resolves
  refine ⟨⟨resolved, sound, ?_⟩, rfl, parameters.ids_context _ _ _ _, rfl⟩
  intro entity member
  rcases List.mem_cons.mp member with rfl | recipient
  · exact ⟨gives.sender_admitted.id_fits, rfl, rfl⟩
  · obtain ⟨listed, there, rfl⟩ := List.mem_map.mp recipient
    exact ⟨(gives.members_admitted listed there).id_fits, rfl, rfl⟩

theorem DerivedFor.starts {sender : Bytes} {others : List Bytes}
    (derived : context.DerivedFor sender others) : context.Starts sender others := by
  cases derived with
  | twoParty derived => exact starts_of_derive derived
  | client derived => exact starts_of_derive derived
  | server derived => exact starts_of_derive derived
  | group given derived => exact starts_of_deriveGroup given derived

/-! ### Nonce spaces -/

/-- Identities have no nonce in common. Whatever bytes are derived, entities over one keying have
a nonce in common exactly when they have one identifier; and so have any two entities that a
context holds at any times, whatever is done with it. -/
theorem nonceSpaces_disjoint :
    (∀ (keying : ResolvedKeying) (derive : Bytes → Purpose → Nat → Except Refusal Bytes),
      (∀ common, derive [] .iv keying.aead.nonceLength = .ok common →
        common.length = keying.aead.nonceLength) →
      ∀ id otherId role otherRole first second,
        keying.entityWith derive id role = .ok first →
        keying.entityWith derive otherId otherRole = .ok second →
        (first.NoncesApart second ↔ id ≠ otherId)) ∧
      (∀ (keying : Keying) (resolved : ResolvedKeying), keying.resolve = .ok resolved →
        ∀ id role, (∃ entity, keying.entity id role = .ok entity) ↔
          id.length + identifierOverhead ≤ resolved.aead.nonceLength) ∧
      (∀ (keying : Keying) (id otherId : Bytes) (role otherRole : Role) (first second : Entity),
        keying.entity id role = .ok first → keying.entity otherId otherRole = .ok second →
        (first.NoncesApart second ↔ id ≠ otherId)) ∧
      ∀ sender others context, DerivedFor sender others context →
        ∀ operations otherOperations,
          ∀ first ∈ (context.after operations).entities,
          ∀ second ∈ (context.after otherOperations).entities,
            (first.NoncesApart second ↔ first.id ≠ second.id) := by
  refine ⟨?_, ?_, ?_, ?_⟩
  · intro keying derive full id otherId role otherRole first second derived otherDerived
    exact ResolvedKeying.noncesApart_of_entityWith full derived otherDerived
  · intro keying resolved known id role
    exact Keying.entity_isOk_iff known id role
  · intro keying id otherId role otherRole first second derived otherDerived
    exact Keying.noncesApart_of_entity derived otherDerived
  · intro sender others context derived operations otherOperations first member second otherMember
    obtain ⟨keying, uniform⟩ := derived.starts.uniform
    exact ((uniform.after operations).all_derived first member).noncesApart_iff
      ((uniform.after otherOperations).all_derived second otherMember)

/-- A sender has no nonce in common with the one it replaces, nor with one whose identifier is the
same behind a zero, even if all derived bytes are zeros. -/
theorem nonceSpaces_disjoint_replaced :
    ∃ key context later, SigningKey.ofSeed (List.replicate 32 0x11) = .ok key ∧
      deriveGroup { keying := { secret := [1] }, sender := [0x0a], key, algorithm := -8 } 1 =
        .ok context ∧
      context.replaceSender [] key = .ok later ∧ context.sender.NoncesApart later.sender ∧
      (∃ first second, Keying.entity { secret := [1] } [0x0a] .sender = .ok first ∧
        Keying.entity { secret := [1] } [0, 0x0a] .recipient = .ok second ∧
        first.NoncesApart second) ∧
      ∃ (keying : ResolvedKeying) (first second : Entity),
        keying.entityWith (fun _ _ length => .ok (List.replicate length 0)) [0x0a] .sender =
          .ok first ∧
        keying.entityWith (fun _ _ length => .ok (List.replicate length 0)) [0, 0x0a] .recipient =
          .ok second ∧
        first.NoncesApart second := by
  let resolved : ResolvedKeying := ⟨[1], [], none, .aesCcm8, .sha256, {}⟩
  have known : Keying.resolve { secret := [1] } = .ok resolved := rfl
  obtain ⟨anyDerivation, accepted, anyKeying, anyContext⟩ := nonceSpaces_disjoint
  obtain ⟨key, made, fits⟩ := @exists_ofSeed (List.replicate 32 0x11) rfl
  obtain ⟨context, derived, -, sender, -, -, leaves⟩ :=
    @deriveGroup_alone _ _ [0x0a] key known (by decide) fits 1
  obtain ⟨later, replaced⟩ := (leaves [] (by decide)).1 (by decide)
  refine ⟨key, context, later, made, derived, replaced, ?_, ?_, ?_⟩
  · have now : context.sender ∈ (context.after []).entities :=
      List.mem_append_right _ List.mem_cons_self
    have afterwards : later.sender ∈ (context.after [.replaceSender [] key]).entities := by
      rw [after, List.foldl_cons, Operation.next_replaceSender replaced]
      exact List.mem_append_right _ List.mem_cons_self
    refine (anyContext _ _ _ (.group rfl derived) _ _ _ now _ afterwards).mpr ?_
    obtain ⟨-, -, -, _, -, -, rfl⟩ := replaceSender_eq_ok.mp replaced
    rw [sender]
    exact List.cons_ne_nil _ _
  · obtain ⟨first, firstMade⟩ := (accepted _ _ known [0x0a] .sender).mpr (by decide)
    obtain ⟨second, secondMade⟩ := (accepted _ _ known [0, 0x0a] .recipient).mpr (by decide)
    exact ⟨first, second, firstMade, secondMade,
      (anyKeying _ _ _ _ _ _ _ firstMade secondMade).mpr (by decide)⟩
  · let zeros : Bytes → Purpose → Nat → Except Refusal Bytes :=
      fun _ _ length => .ok (List.replicate length 0)
    have full : ∀ common, zeros [] .iv resolved.aead.nonceLength = .ok common →
        common.length = resolved.aead.nonceLength := by
      intro common given
      cases given
      exact List.length_replicate
    obtain ⟨first, firstMade⟩ : ∃ first, resolved.entityWith zeros [0x0a] .sender = .ok first :=
      ⟨_, rfl⟩
    obtain ⟨second, secondMade⟩ :
        ∃ second, resolved.entityWith zeros [0, 0x0a] .recipient = .ok second := ⟨_, rfl⟩
    exact ⟨resolved, first, second, firstMade, secondMade,
      (anyDerivation _ zeros full _ _ _ _ _ _ firstMade secondMade).mpr (by decide)⟩

end SecurityContext

end Oscore
