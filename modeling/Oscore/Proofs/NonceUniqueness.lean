/-
This file says when the nonces of a run are distinct. A context of two parties
keeps its sender, so its numbers grow and no nonce comes twice. The context of
a group may replace its sender, and each new sender begins at zero with a key
and an IV that its identifier determines. Nonces then come twice exactly when
two senders of one identifier take the same number, which cannot happen as long
as no sender's identifier returns.
-/

import Oscore.Proofs.Reservations

namespace Oscore.SecurityContext

variable {context before later : SecurityContext} {keying : ResolvedKeying}

/-! ### Two parties -/

/-- The contexts that are derived for two parties. -/
inductive TwoParty : SecurityContext → Prop
  /-- From keying and two identifiers. -/
  | derive {keying : Keying} {sender recipient : Bytes} {number : Nat} {context : SecurityContext}
      (derived : SecurityContext.derive keying sender recipient number = .ok context) :
      TwoParty context
  /-- From the parameters of a client and a server. -/
  | parameters {parameters : InputParameters} {role : EndpointRole}
      {nonces : Option (Bytes × Bytes)} {limits : Limits} {number : Nat}
      {context : SecurityContext}
      (derived : parameters.derive role nonces limits number = .ok context) : TwoParty context
  /-- From the context of a group, for its sender and one member. -/
  | pair {group context : SecurityContext} {id : Bytes} {number : Nat}
      (reachable : group.Reachable) (derived : group.derivePair id number = .ok context) :
      TwoParty context

theorem TwoParty.reachable (returned : context.TwoParty) : context.Reachable := by
  cases returned with
  | derive derived => exact .derive derived
  | parameters derived => exact .deriveFromParameters derived
  | pair reachable derived => exact .derivePair reachable derived

theorem countersigning_of_derive {keying : Keying} {sender recipient : Bytes} {number : Nat}
    (derived : derive keying sender recipient number = .ok context) :
    context.countersigning = none := by
  obtain ⟨_, -, -, -, rfl⟩ := derive_eq_ok.mp derived
  rfl

theorem TwoParty.countersigning_eq (returned : context.TwoParty) :
    context.countersigning = none := by
  cases returned with
  | derive derived => exact countersigning_of_derive derived
  | @parameters parameters role _ _ _ _ derived =>
    cases role with
    | client => exact countersigning_of_derive derived
    | server => exact countersigning_of_derive derived
  | pair reachable derived =>
    obtain ⟨_, _, _, _, _, _, _, _, _, _, rfl⟩ :=
      (derivePair_eq_ok reachable.window_pos).mp derived
    rfl

/-- A context without countersignatures keeps its sender. -/
theorem Changes.generation_eq {forgets : Place → Prop} (changes : before.Changes forgets later)
    (unsigned : before.countersigning = none) :
    later.formerSenders.length = before.formerSenders.length ∧ later.countersigning = none := by
  cases changes with
  | nothing => exact ⟨rfl, unsigned⟩
  | @entity place _ _ found evolves _ =>
    cases place with
    | sender generation =>
      rw [setEntity]
      split
      · exact ⟨rfl, unsigned⟩
      · exact ⟨List.length_set .., unsigned⟩
    | recipient id => exact ⟨rfl, unsigned⟩
  | member added =>
    obtain ⟨-, -, _, -, -, rfl⟩ := addRecipient_eq_ok.mp added
    exact ⟨rfl, unsigned⟩
  | sender replaced =>
    obtain ⟨⟨algorithm, signed, -⟩, -⟩ := replaceSender_eq_ok.mp replaced
    rw [signatureAlgorithm, unsigned] at signed
    cases signed

theorem Sound.generation_of_mem_reservations (sound : context.Sound keying)
    (unsigned : context.countersigning = none) {operations : List Operation}
    {reservation : Reservation} (member : reservation ∈ context.reservations operations) :
    reservation.generation = context.formerSenders.length := by
  induction operations generalizing context with
  | nil => cases member
  | cons operation rest inductionHypothesis =>
    rcases List.mem_append.mp member with now | afterwards
    · rw [Option.mem_toList] at now
      exact congrArg Turn.generation (sound.turn_of_reservation now).1
    · obtain ⟨same, stillUnsigned⟩ := (operation.changes_next context).generation_eq unsigned
      rw [inductionHypothesis (sound.next operation) stillUnsigned afterwards, same]

/-- Whatever is done with a context of two parties, its sequence numbers grow, stay below the
last that a partial IV carries, and give distinct nonces. -/
theorem reservations_of_twoParty (returned : context.TwoParty) (operations : List Operation) :
    ((context.reservations operations).map fun taken => taken.sequence).Pairwise (· < ·) ∧
      (∀ taken ∈ context.reservations operations, taken.sequence < 2 ^ 40 - 1) ∧
      ((context.reservations operations).map fun taken => taken.nonce).Nodup := by
  obtain ⟨keying, sound⟩ := returned.reachable.sound
  -- all turns are of one generation, so their order is that of the numbers
  have increasing : (context.reservations operations).Pairwise fun first second =>
      first.sequence < second.sequence := by
    refine (sound.reservations_pairwise operations).imp_of_mem ?_
    intro first second firstMember secondMember order
    have firstGeneration :=
      sound.generation_of_mem_reservations returned.countersigning_eq firstMember
    have secondGeneration :=
      sound.generation_of_mem_reservations returned.countersigning_eq secondMember
    rcases order with earlier | ⟨-, -, smaller⟩
    · exact absurd (firstGeneration.trans secondGeneration.symm) (Nat.ne_of_lt earlier)
    · exact smaller
  refine ⟨List.pairwise_map.mpr increasing, ?_, ?_⟩
  · intro taken member
    exact (sound.reservations_derivedBy member).sequence_lt
  · refine List.pairwise_map.mpr (increasing.imp_of_mem ?_)
    intro first second firstMember secondMember smaller same
    have numbers := ((sound.reservations_derivedBy firstMember).nonce_inj
      (sound.reservations_derivedBy secondMember)).mp same
    exact Nat.ne_of_lt smaller numbers.2

/-- A restored counter goes on from the restored number, and no nonce comes twice. -/
theorem reservations_restored :
    ∃ context, derive { secret := [1] } [] [1] 1 = .ok context ∧ context.TwoParty ∧
      ((context.reservations [.reserve, .protect [] [], .adjust (.sender 0) (.restore 700),
        .reserve]).map fun taken => taken.sequence).Pairwise (· < ·) ∧
      (∀ taken ∈ context.reservations [.reserve, .protect [] [],
        .adjust (.sender 0) (.restore 700), .reserve], taken.sequence < 2 ^ 40 - 1) ∧
      ((context.reservations [.reserve, .protect [] [], .adjust (.sender 0) (.restore 700),
        .reserve]).map fun taken => taken.nonce).Nodup := by
  let resolved : ResolvedKeying :=
    { secret := [1], salt := [], idContext := none, aead := .aesCcm8, kdf := .sha256,
      limits := {} }
  have known : Keying.resolve { secret := [1] } = .ok resolved := rfl
  have derived := (@derive_eq_ok _ { secret := [1] } [] [1] 1).mpr
    ⟨resolved, known, by decide, by decide, rfl⟩
  exact ⟨_, derived, .derive derived, reservations_of_twoParty (.derive derived) _⟩

/-! ### Groups -/

/-- The identifiers of all senders that a context had, oldest first. -/
def senderIds (context : SecurityContext) : List Bytes :=
  (context.formerSenders ++ [context.sender]).map Entity.id

/-- An entity at its place keeps its identifier. -/
theorem senderIds_setEntity {place : Place} {entity next : Entity}
    (found : context.entity? place = some entity) (evolves : entity.Evolves next) :
    (context.setEntity place next).senderIds = context.senderIds := by
  cases place with
  | sender generation =>
    obtain ⟨inside, rfl⟩ := List.getElem?_eq_some_iff.mp found
    have replaced : (context.setEntity (.sender generation) next).senderIds =
        ((context.formerSenders ++ [context.sender]).set generation next).map Entity.id := by
      rw [setEntity, senderIds]
      split
      · rename_i current
        rw [current, List.set_append_right _ _ (Nat.le_refl _), Nat.sub_self]
        rfl
      · rename_i other
        rw [List.length_append, List.length_singleton] at inside
        rw [List.set_append_left _ _ (by omega)]
    rw [replaced, List.map_set, evolves.id_eq, ← List.map_set, List.set_getElem_self, senderIds]
  | recipient id => rfl

theorem senderIds_reserve (context : SecurityContext) :
    context.reserve.context.senderIds = context.senderIds := by
  rw [reserve]
  split
  · rfl
  · split
    · rfl
    · rename_i advanced
      have kept := senderIds_setEntity context.entity?_senderPlace
        (Entity.advance_evolves advanced).1
      rwa [setEntity_senderPlace] at kept

theorem senderIds_replaceSender {id : Bytes} {key : SigningKey}
    (replaced : before.replaceSender id key = .ok later) :
    later.senderIds = before.senderIds ++ [id] := by
  obtain ⟨-, -, -, _, -, -, rfl⟩ := replaceSender_eq_ok.mp replaced
  exact List.map_append

/-- A context remembers the identifiers of its senders. -/
theorem Changes.senderIds_extended {forgets : Place → Prop}
    (changes : before.Changes forgets later) :
    before.senderIds <+: later.senderIds := by
  cases changes with
  | nothing => exact List.prefix_rfl
  | entity found evolves =>
    exact (senderIds_setEntity found evolves).symm ▸ List.prefix_rfl
  | member added =>
    obtain ⟨-, -, _, -, -, rfl⟩ := addRecipient_eq_ok.mp added
    exact List.prefix_rfl
  | sender replaced =>
    rw [senderIds_replaceSender replaced]
    exact List.prefix_append _ _

theorem senderIds_extended_after (context : SecurityContext) (operations : List Operation) :
    context.senderIds <+: (context.after operations).senderIds := by
  induction operations generalizing context with
  | nil => exact List.prefix_rfl
  | cons operation rest inductionHypothesis =>
    exact (operation.changes_next context).senderIds_extended.trans
      (inductionHypothesis (operation.next context))

/-- A nonce names the sender of its generation. -/
theorem Sound.sender_of_mem_reservations (sound : context.Sound keying)
    {operations : List Operation} {reservation : Reservation}
    (member : reservation ∈ context.reservations operations) :
    (context.after operations).senderIds[reservation.generation]? = some reservation.sender := by
  induction operations generalizing context with
  | nil => cases member
  | cons operation rest inductionHypothesis =>
    rcases List.mem_append.mp member with now | afterwards
    · rw [Option.mem_toList] at now
      have turn := (sound.turn_of_reservation now).1
      have generation : reservation.generation = context.formerSenders.length :=
        congrArg Turn.generation turn
      have sender : reservation.sender = context.sender.id := congrArg Turn.sender turn
      have stands : context.senderIds[reservation.generation]? = some reservation.sender := by
        rw [senderIds, generation, sender, List.map_append, ← List.length_map Entity.id,
          List.getElem?_append_right (Nat.le_refl _), Nat.sub_self]
        rfl
      -- later senders are appended, so the place keeps its identifier
      obtain ⟨inside, same⟩ := List.getElem?_eq_some_iff.mp stands
      have kept := context.senderIds_extended_after (operation :: rest)
      rw [List.prefix_iff_getElem?.mp kept _ inside, same]
    · exact inductionHypothesis (sound.next operation) afterwards

/-- What an unused sender reserves first depends on its identifier alone. -/
theorem Sound.reservation_of_unused (sound : context.Sound keying)
    (unused : context.sender.sequence = 0) (left : 0 < context.sender.maximum) :
    ∃ first, Operation.reserve.reservation context = some first ∧
      first.key = keying.keyOf context.sender.id ∧
      first.nonce = keying.nonceOf context.sender.id (PartialIv.encode 0) ∧
      first.sender = context.sender.id ∧ first.sequence = 0 := by
  refine ⟨context.upcoming keying, sound.reservation_eq_some.mpr ⟨rfl, ?_, rfl⟩, ?_⟩
  · rw [unused]
    exact left
  · rw [upcoming, unused]
    exact ⟨sound.derived.key_eq, rfl, rfl, rfl⟩

/-- A member that takes another identifier and then its own again reserves the same nonce under
the same key again, whatever context of a group it is in. -/
theorem reservations_of_return {parameters : GroupParameters} {number : Nat}
    (derived : deriveGroup parameters number = .ok context)
    (positive : 0 < parameters.keying.limits.maximum) {other : Bytes} {key : SigningKey}
    (leaves : context.replaceSender other key = .ok later)
    (alone : context.recipient? parameters.sender = none) :
    ∃ first last, context.reservations [.reserve, .replaceSender other key,
        .replaceSender parameters.sender key, .reserve] = [first, last] ∧
      first.key = last.key ∧ first.nonce = last.nonce ∧ first.sender = last.sender ∧
      first.sequence = last.sequence := by
  obtain ⟨_, keying, _, ⟨-, -, known, ⟨-, ownShort⟩, -, -⟩, equal⟩ :=
    deriveGroup_eq_ok_context.mp derived
  obtain ⟨_, sound⟩ := sound_of_deriveGroup derived
  obtain ⟨fits, different, free, _, knownAgain, short, -⟩ := replaceSender_eq_ok.mp leaves
  cases sound.resolved.symm.trans knownAgain
  have sameKeying : context.keying = parameters.keying := congrArg SecurityContext.keying equal
  rw [sameKeying] at knownAgain
  cases known.symm.trans knownAgain
  have sameId : context.sender.id = parameters.sender := by rw [equal]; rfl
  rw [← (Keying.resolve_eq_ok.mp known).2.2.2.2.2.2] at positive
  -- the first nonce
  obtain ⟨first, taken, firstKey, firstNonce, firstSender, firstSequence⟩ :=
    sound.reservation_of_unused (by rw [equal]; rfl) (by rw [equal]; exact positive)
  have moved := sound.next_of_reservation taken
  -- the other identifier
  obtain ⟨away, left⟩ := replaceSender_of_reserve leaves
  have awaySound := (sound.next .reserve).replaceSender left
  -- and back
  obtain ⟨back, returned⟩ : ∃ back, away.replaceSender parameters.sender key = .ok back := by
    obtain ⟨-, -, -, _, -, -, rfl⟩ := replaceSender_eq_ok.mp left
    rw [moved] at awaySound ⊢
    rw [sameId] at different
    exact ⟨_, replaceSender_eq_ok.mpr
      ⟨fits, Ne.symm different, alone, keying, awaySound.resolved, ownShort, rfl⟩⟩
  obtain ⟨last, again, lastKey, lastNonce, lastSender, lastSequence⟩ :
      ∃ last, Operation.reserve.reservation back = some last ∧
        last.key = keying.keyOf parameters.sender ∧
        last.nonce = keying.nonceOf parameters.sender (PartialIv.encode 0) ∧
        last.sender = parameters.sender ∧ last.sequence = 0 := by
    have backSound := awaySound.replaceSender returned
    obtain ⟨-, -, -, _, backKnown, -, rfl⟩ := replaceSender_eq_ok.mp returned
    cases awaySound.resolved.symm.trans backKnown
    exact backSound.reservation_of_unused rfl positive
  refine ⟨first, last, ?_, ?_, ?_, ?_, ?_⟩
  · rw [reservations, taken, reservations, reservations, Operation.next_replaceSender left,
      Operation.next_replaceSender returned, reservations, again]
    rfl
  · rw [firstKey, lastKey, sameId]
  · rw [firstNonce, lastNonce, sameId]
  · rw [firstSender, lastSender, sameId]
  · rw [firstSequence, lastSequence]

/-- A key and a nonce belong to one identifier and one number. -/
theorem Sound.nodup_key_nonce_iff (sound : context.Sound keying) (operations : List Operation) :
    ((context.reservations operations).map fun taken => (taken.key, taken.nonce)).Nodup ↔
      ((context.reservations operations).map fun taken =>
        (taken.sender, taken.sequence)).Nodup := by
  rw [List.Nodup, List.Nodup, List.pairwise_map, List.pairwise_map]
  refine List.Pairwise.iff_of_mem fun firstMember secondMember => not_congr ?_
  rw [(sound.reservations_derivedBy firstMember).key_nonce_inj
    (sound.reservations_derivedBy secondMember), Prod.mk.injEq]

/-- A number comes twice under one identifier only from two senders. -/
theorem Sound.nodup_sender_sequence_iff (sound : context.Sound keying)
    (operations : List Operation) :
    ((context.reservations operations).map fun taken => (taken.sender, taken.sequence)).Nodup ↔
      (context.reservations operations).Pairwise fun first second =>
        first.generation < second.generation → first.sender = second.sender →
          first.sequence ≠ second.sequence := by
  rw [List.Nodup, List.pairwise_map]
  constructor
  · intro distinct
    refine distinct.imp ?_
    intro first second different _ sameSender sameSequence
    exact different (Prod.ext sameSender sameSequence)
  · intro distinct
    refine (distinct.and (sound.reservations_pairwise operations)).imp ?_
    rintro first second ⟨apart, earlier | ⟨-, -, smaller⟩⟩ same
    · exact apart earlier (congrArg Prod.fst same) (congrArg Prod.snd same)
    · exact Nat.ne_of_lt smaller (congrArg Prod.snd same)

/-- Two senders of one identifier are two places of it among the senders. -/
theorem Sound.generation_eq_of_sender_eq (sound : context.Sound keying)
    {operations : List Operation} (unrepeated : (context.after operations).senderIds.Nodup)
    {first second : Reservation} (firstMember : first ∈ context.reservations operations)
    (secondMember : second ∈ context.reservations operations)
    (same : first.sender = second.sender) : first.generation = second.generation := by
  have firstPlace := sound.sender_of_mem_reservations firstMember
  have secondPlace := sound.sender_of_mem_reservations secondMember
  obtain ⟨inside, -⟩ := List.getElem?_eq_some_iff.mp firstPlace
  rw [← same, ← firstPlace] at secondPlace
  exact (List.getElem?_inj inside unrepeated).mp secondPlace.symm

/-- In the context of a group, no nonce comes twice under one key exactly when no number does
under one identifier, which is so exactly when no two senders of one identifier take the same
number, and always as long as no identifier of a sender returns. -/
theorem reservations_of_group {parameters : GroupParameters} {number : Nat}
    (derived : deriveGroup parameters number = .ok context) (operations : List Operation) :
    (((context.reservations operations).map fun taken => (taken.key, taken.nonce)).Nodup ↔
      ((context.reservations operations).map fun taken =>
        (taken.sender, taken.sequence)).Nodup) ∧
      (((context.reservations operations).map fun taken => (taken.key, taken.nonce)).Nodup ↔
        (context.reservations operations).Pairwise fun first second =>
          first.generation < second.generation → first.sender = second.sender →
            first.sequence ≠ second.sequence) ∧
      ((context.after operations).senderIds.Nodup →
        ((context.reservations operations).map fun taken => (taken.key, taken.nonce)).Nodup) := by
  obtain ⟨keying, sound⟩ := sound_of_deriveGroup derived
  have samePairs := sound.nodup_key_nonce_iff operations
  have acrossSenders := samePairs.trans (sound.nodup_sender_sequence_iff operations)
  refine ⟨samePairs, acrossSenders, ?_⟩
  intro unrepeated
  rw [acrossSenders]
  refine List.pairwise_of_forall_mem_list ?_
  intro first firstMember second secondMember earlier sameSender
  have sameGeneration :=
    sound.generation_eq_of_sender_eq unrepeated firstMember secondMember sameSender
  exact absurd sameGeneration (Nat.ne_of_lt earlier)

/-- A member that sends under one identifier and then under another never repeats a nonce. -/
theorem reservations_of_group_replaced :
    ∃ key context, SigningKey.ofSeed (List.replicate 32 0x11) = .ok key ∧
      deriveGroup { keying := { secret := [1] }, sender := [0x0a], key, algorithm := -8 } 1 =
        .ok context ∧
      (context.after [.reserve, .replaceSender [0x0c] key, .reserve]).senderIds.Nodup ∧
      ((context.reservations [.reserve, .replaceSender [0x0c] key, .reserve]).map fun taken =>
        (taken.key, taken.nonce)).Nodup := by
  obtain ⟨key, made, fits⟩ := @exists_ofSeed (List.replicate 32 0x11) rfl
  have known : Keying.resolve { secret := [1] } =
      .ok ⟨[1], [], none, .aesCcm8, .sha256, {}⟩ := rfl
  obtain ⟨context, derived, -, sender, noFormer, -, leaves⟩ :=
    @deriveGroup_alone _ _ [0x0a] key known (by decide) fits 1
  obtain ⟨away, left⟩ := (leaves [0x0c] (by decide)).1 (by decide)
  obtain ⟨later, replaced⟩ := replaceSender_of_reserve left
  have unrepeated :
      (context.after [.reserve, .replaceSender [0x0c] key, .reserve]).senderIds.Nodup := by
    have first : (Operation.reserve.next context).senderIds = [[0x0a]] := by
      rw [Operation.next, senderIds_reserve, senderIds, noFormer, sender]
      rfl
    have last : context.after [.reserve, .replaceSender [0x0c] key, .reserve] =
        later.reserve.context := by
      rw [after, List.foldl_cons, List.foldl_cons, Operation.next_replaceSender replaced]
      rfl
    rw [last, senderIds_reserve, senderIds_replaceSender replaced, first]
    decide
  exact ⟨key, context, made, derived, unrepeated,
    (reservations_of_group derived _).2.2 unrepeated⟩

/-- A member whose first identifier returns repeats its first nonce. -/
theorem reservations_repeated :
    ∃ key context, SigningKey.ofSeed (List.replicate 32 0x11) = .ok key ∧
      deriveGroup { keying := { secret := [1] }, sender := [0x0a], key, algorithm := -8 } 1 =
        .ok context ∧
      ∃ first last, context.reservations [.reserve, .replaceSender [0x0c] key,
          .replaceSender [0x0a] key, .reserve] = [first, last] ∧
        first.key = last.key ∧ first.nonce = last.nonce ∧ first.sender = last.sender ∧
        first.sequence = last.sequence := by
  obtain ⟨key, made, fits⟩ := @exists_ofSeed (List.replicate 32 0x11) rfl
  have known : Keying.resolve { secret := [1] } =
      .ok ⟨[1], [], none, .aesCcm8, .sha256, {}⟩ := rfl
  obtain ⟨context, derived, -, -, -, alone, leaves⟩ :=
    @deriveGroup_alone _ _ [0x0a] key known (by decide) fits 1
  obtain ⟨away, left⟩ := (leaves [0x0c] (by decide)).1 (by decide)
  have single : context.recipient? [0x0a] = none := by
    rw [recipient?, alone]
    rfl
  exact ⟨key, context, made, derived, reservations_of_return derived (Nat.succ_pos _) left single⟩

end Oscore.SecurityContext
