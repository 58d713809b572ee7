/-
This file says when two contexts are the ends of one exchange: each listens to
the sender of the other, knows its identifier, key and IV, and so finds the
nonce of every message again. Two derivations that take the same identifiers in
opposite order give such contexts or are refused both. From then on the ends
have nothing to do with each other, but no operation at either of them takes
this from them.
-/

import Oscore.Proofs.NonceSpaces
import Oscore.Proofs.Reservations

namespace Oscore

/-! ### Identities -/

/-- What both ends must know of an entity. -/
structure Identity where
  id : Bytes
  key : Bytes
  baseIv : Bytes
  deriving DecidableEq, Repr

/-- What an entity shows to the other end. -/
def Entity.identity (entity : Entity) : Identity := ⟨entity.id, entity.key, entity.baseIv⟩

theorem Entity.Evolves.identity_eq {before after : Entity} (evolves : before.Evolves after) :
    after.identity = before.identity := by
  rw [Entity.identity, evolves.id_eq, evolves.key_eq, evolves.baseIv_eq, Entity.identity]

/-- What keying makes of an identifier, for a sender and for a recipient alike. -/
def ResolvedKeying.identity (keying : ResolvedKeying) (id : Bytes) : Identity :=
  ⟨id, keying.keyOf id, foldIdentifier keying.commonIv id⟩

namespace SecurityContext

variable {context before later peer speaker listener : SecurityContext}
  {keying peerKeying : ResolvedKeying} {own other : Identity}

/-! ### Contexts between two identities -/

/-- A context that sends as one identity and listens to one other, for good: without
countersignatures it can neither replace its sender nor add a member. -/
structure Between (context : SecurityContext) (own other : Identity) : Prop where
  unsigned : context.countersigning = none
  sender_eq : context.sender.identity = own
  recipients_eq : context.recipients.map Entity.identity = [other]

theorem Between.touches (between : before.Between own other) {forgets : Place → Prop}
    (touches : before.Touches forgets later) : later.Between own other := by
  cases touches with
  | nothing => exact between
  | @entity place entity next found evolves _ =>
    cases place with
    | sender generation =>
      rw [setEntity]
      split
      · rename_i current
        rw [current] at found
        cases before.entity?_senderPlace.symm.trans found
        exact ⟨between.unsigned, evolves.identity_eq.trans between.sender_eq,
          between.recipients_eq⟩
      · exact ⟨between.unsigned, between.sender_eq, between.recipients_eq⟩
    | recipient id =>
      refine ⟨between.unsigned, between.sender_eq, ?_⟩
      -- the recipient that was found is the only one there is
      obtain ⟨member, alone, identity⟩ := List.map_eq_singleton_iff.mp between.recipients_eq
      have there := mem_of_recipient? found
      rw [alone, List.mem_singleton] at there
      subst there
      show (before.recipients.map fun other => if other.id = next.id then next else other).map
        Entity.identity = _
      rw [alone, List.map_singleton, if_pos evolves.id_eq.symm, List.map_singleton,
        evolves.identity_eq, identity]

theorem Between.next (between : context.Between own other) (operation : Operation) :
    (operation.next context).Between own other := by
  rcases operation.next_cases context with touches | ⟨_, _, -, added⟩ | ⟨_, _, -, replaced⟩
  · exact between.touches touches
  · obtain ⟨⟨_, signed, -⟩, -⟩ := addRecipient_eq_ok.mp added
    rw [signatureAlgorithm, between.unsigned] at signed
    cases signed
  · obtain ⟨⟨_, signed, -⟩, -⟩ := replaceSender_eq_ok.mp replaced
    rw [signatureAlgorithm, between.unsigned] at signed
    cases signed

theorem Between.after (between : context.Between own other) (operations : List Operation) :
    (context.after operations).Between own other := by
  induction operations generalizing context with
  | nil => exact between
  | cons operation rest inductionHypothesis => exact inductionHypothesis (between.next operation)

/-! ### Hearing each other -/

/-- A listener that has the sender of a speaker as its only recipient, and that finds the nonce
of every number again in its partial IV. -/
structure HeardBy (speaker listener : SecurityContext) : Prop where
  recipients_eq : listener.recipients.map Entity.identity = [speaker.sender.identity]
  nonces_eq : ∀ sequence ≤ 2 ^ 40 - 1, ∃ nonce,
    speaker.sender.nonce (PartialIv.encode sequence) = .ok nonce ∧
      listener.recipientNonce speaker.sender.id (PartialIv.encode sequence) = .ok nonce

/-- Two contexts each of which hears the other. -/
structure Mirrors (context peer : SecurityContext) : Prop where
  heard : context.HeardBy peer
  hears : peer.HeardBy context

/-- Whoever knows an entity as its only recipient builds the same nonces as that entity. -/
theorem recipientNonce_eq {entity : Entity}
    (known : listener.recipients.map Entity.identity = [entity.identity]) (partialIv : Bytes) :
    listener.recipientNonce entity.id partialIv = entity.nonce partialIv := by
  obtain ⟨member, alone, same⟩ := List.map_eq_singleton_iff.mp known
  have sameId : member.id = entity.id := congrArg Identity.id same
  have found : listener.recipient? entity.id = some member := by
    rw [recipient?, alone, List.find?_singleton]
    exact if_pos (decide_eq_true sameId)
  rw [recipientNonce, recipient_eq_ok.mpr found]
  exact Entity.nonce_congr (congrArg Identity.baseIv same) partialIv

theorem Sound.heardBy (sound : speaker.Sound keying)
    (known : listener.recipients.map Entity.identity = [speaker.sender.identity]) :
    speaker.HeardBy listener := by
  refine ⟨known, ?_⟩
  intro sequence small
  have nonce := sound.derived.nonce_eq (PartialIv.length_encode_pos sequence)
    (PartialIv.length_encode_le small)
  exact ⟨_, nonce, (recipientNonce_eq known _).trans nonce⟩

theorem Between.mirrors (between : context.Between own other) (sound : context.Sound keying)
    (peerBetween : peer.Between other own) (peerSound : peer.Sound peerKeying) :
    context.Mirrors peer where
  heard := sound.heardBy (by rw [peerBetween.recipients_eq, between.sender_eq])
  hears := peerSound.heardBy (by rw [between.recipients_eq, peerBetween.sender_eq])

/-- Whatever is done at the two ends, each still hears the other. -/
theorem Between.mirrors_after (between : context.Between own other)
    (sound : context.Sound keying) (peerBetween : peer.Between other own)
    (peerSound : peer.Sound peerKeying) (operations peerOperations : List Operation) :
    (context.after operations).Mirrors (peer.after peerOperations) :=
  (between.after operations).mirrors (sound.after operations) (peerBetween.after peerOperations)
    (peerSound.after peerOperations)

/-- Whoever knows the sender as its only recipient finds every nonce of a run again. -/
theorem Between.heard_of_mem_reservations (between : context.Between own other)
    (sound : context.Sound keying)
    (known : listener.recipients.map Entity.identity = [own]) {operations : List Operation}
    {taken : Reservation} (member : taken ∈ context.reservations operations) :
    listener.recipientNonce taken.sender taken.partialIv = .ok taken.nonce := by
  induction operations generalizing context with
  | nil => cases member
  | cons operation rest inductionHypothesis =>
    rcases List.mem_append.mp member with now | afterwards
    · rw [Option.mem_toList] at now
      obtain ⟨-, -, rfl⟩ := sound.reservation_eq_some.mp now
      rw [← between.sender_eq] at known
      exact (recipientNonce_eq known _).trans sound.nonce_upcoming
    · exact inductionHypothesis (between.next operation) (sound.next operation) afterwards

/-! ### The ends of one exchange -/

/-- A derivation succeeds exactly when the keying is in order and both identifiers fit. -/
theorem exists_derive_iff {keying : Keying} {sender recipient : Bytes} {number : Nat} :
    (∃ context, derive keying sender recipient number = .ok context) ↔
      ∃ resolved, keying.resolve = .ok resolved ∧
        sender.length ≤ resolved.aead.identifierCapacity ∧
        recipient.length ≤ resolved.aead.identifierCapacity := by
  constructor
  · rintro ⟨context, derived⟩
    obtain ⟨resolved, known, senderFits, recipientFits, -⟩ := derive_eq_ok.mp derived
    exact ⟨resolved, known, senderFits, recipientFits⟩
  · rintro ⟨resolved, known, senderFits, recipientFits⟩
    exact ⟨_, derive_eq_ok.mpr ⟨resolved, known, senderFits, recipientFits, rfl⟩⟩

/-- What a derivation gives to each side. -/
theorem between_of_derive {keying : Keying} {resolved : ResolvedKeying} {sender recipient : Bytes}
    {number : Nat} (known : keying.resolve = .ok resolved)
    (derived : derive keying sender recipient number = .ok context) :
    context.Between (resolved.identity sender) (resolved.identity recipient) ∧
      context.Sound resolved := by
  obtain ⟨_, sound⟩ := sound_of_derive derived
  obtain ⟨_, again, -, -, rfl⟩ := derive_eq_ok.mp derived
  cases known.symm.trans again
  cases known.symm.trans sound.resolved
  exact ⟨⟨rfl, rfl, rfl⟩, sound⟩

/-- The derivations at the two ends of an exchange, each for a context number. -/
inductive Ends : (Nat → Except Refusal SecurityContext) →
    (Nat → Except Refusal SecurityContext) → Prop
  /-- From keying and the two identifiers, in either order. -/
  | identifiers (keying : Keying) (first second : Bytes) :
      Ends (derive keying first second) (derive keying second first)
  /-- From the parameters of a client and a server, in either role. -/
  | roles (parameters : InputParameters) (nonces : Option (Bytes × Bytes)) (limits : Limits) :
      Ends (parameters.derive .client nonces limits) (parameters.derive .server nonces limits)

/-- Both ends exchange the identifiers of one derivation. -/
theorem Ends.exists_derive {here there : Nat → Except Refusal SecurityContext}
    (ends : Ends here there) : ∃ keying first second,
      here = derive keying first second ∧ there = derive keying second first := by
  cases ends with
  | identifiers keying first second => exact ⟨keying, first, second, rfl, rfl⟩
  | roles parameters nonces limits =>
    exact ⟨parameters.keying nonces limits, parameters.clientId, parameters.serverId, rfl, rfl⟩

/-- One end of an exchange can be derived exactly when the other can. Whatever is then done at
both ends, each has the sender of the other, in identifier, key and IV, as its only recipient,
finds the nonce of every number up to `2 ^ 40 - 1` again in the partial IV, and so every nonce
that the other handed out. -/
theorem mirrors_of_ends {here there : Nat → Except Refusal SecurityContext}
    (ends : Ends here there) (number peerNumber : Nat) :
    ((∃ context, here number = .ok context) ↔ ∃ peer, there peerNumber = .ok peer) ∧
      ∀ context peer, here number = .ok context → there peerNumber = .ok peer →
        ∀ operations peerOperations,
          (context.after operations).Mirrors (peer.after peerOperations) ∧
          (∀ taken ∈ context.reservations operations,
            (peer.after peerOperations).recipientNonce taken.sender taken.partialIv =
              .ok taken.nonce) ∧
          ∀ taken ∈ peer.reservations peerOperations,
            (context.after operations).recipientNonce taken.sender taken.partialIv =
              .ok taken.nonce := by
  obtain ⟨keying, first, second, rfl, rfl⟩ := ends.exists_derive
  constructor
  · rw [exists_derive_iff, exists_derive_iff]
    refine exists_congr fun resolved => and_congr_right fun _ => ?_
    exact And.comm
  · intro context peer derived peerDerived operations peerOperations
    obtain ⟨resolved, known, -⟩ := derive_eq_ok.mp derived
    obtain ⟨between, sound⟩ := between_of_derive known derived
    obtain ⟨peerBetween, peerSound⟩ := between_of_derive known peerDerived
    refine ⟨between.mirrors_after sound peerBetween peerSound operations peerOperations, ?_, ?_⟩
    · intro taken member
      exact between.heard_of_mem_reservations sound
        (peerBetween.after peerOperations).recipients_eq member
    · intro taken member
      exact peerBetween.heard_of_mem_reservations peerSound
        (between.after operations).recipients_eq member

/-- A client and a server mirror each other after the client went on from a restored number, and
the server finds the nonce of the client's first message. Identifiers that leave no room for a
partial IV are refused at both ends. -/
theorem mirrors_of_ends_restored :
    let parameters : InputParameters :=
      { masterSecret := [1], clientId := [], serverId := [0x0a], masterSalt := some [2] }
    let operations : List Operation :=
      [.reserve, .adjust (.sender 0) (.restore 700), .protect [] [3]]
    (∃ client server, parameters.derive .client (some ([5], [6])) {} 1 = .ok client ∧
      parameters.derive .server (some ([5], [6])) {} 9 = .ok server ∧
      (client.after operations).Mirrors (server.after [.record [] 4]) ∧
      ∃ taken ∈ client.reservations operations, taken.sequence = 0 ∧
        (server.after [.record [] 4]).recipientNonce taken.sender taken.partialIv =
          .ok taken.nonce) ∧
    ¬∃ context, derive { secret := [1] } (List.replicate 8 0) [] 1 = .ok context := by
  intro parameters operations
  constructor
  · have known : (parameters.keying (some ([5], [6])) {}).resolve =
        .ok ⟨[1], [2, 5, 6], none, .aesCcm8, .sha256, {}⟩ := rfl
    have derived := (@derive_eq_ok _ (parameters.keying (some ([5], [6])) {}) [] [0x0a] 1).mpr
      ⟨_, known, by decide, by decide, rfl⟩
    have peerDerived := (@derive_eq_ok _ (parameters.keying (some ([5], [6])) {}) [0x0a] [] 9).mpr
      ⟨_, known, by decide, by decide, rfl⟩
    obtain ⟨mirrors, heard, -⟩ := (mirrors_of_ends (.roles parameters (some ([5], [6])) {}) 1 9).2
      _ _ derived peerDerived operations [.record [] 4]
    have first := (between_of_derive known derived).2.reservation_eq_some.mpr
      ⟨(rfl : Operation.reserve.reserves), by decide, rfl⟩
    have member : _ ∈ SecurityContext.reservations _ operations :=
      List.mem_append_left _ (Option.mem_toList.mpr first)
    exact ⟨_, _, derived, peerDerived, mirrors, _, member, rfl, heard _ member⟩
  · have known : Keying.resolve { secret := [1] } =
        .ok ⟨[1], [], none, .aesCcm8, .sha256, {}⟩ := rfl
    rw [(mirrors_of_ends (.identifiers { secret := [1] } (List.replicate 8 0) []) 1 1).1,
      exists_derive_iff]
    rintro ⟨resolved, again, -, fits⟩
    cases known.symm.trans again
    exact absurd fits (by decide)

end SecurityContext

end Oscore
