/-
This file compares what a protected message names with what it was encrypted
under. A message is encrypted in two looks at the context: the nonce comes from
the first, and the key from the second, after the handlers ran. The message
names the sender of the first look. It is consistent, and then opens at every
peer that holds the sender it names, exactly when the keys of both senders
encrypt it alike; so it is when the handlers left the sender in its place.
-/

import Oscore.Proofs.LawfulActions
import Oscore.Proofs.Reservations

namespace Oscore

/-! ### Encryption and decryption undo each other -/

theorem AeadScheme.encrypt_of_decrypt {scheme : AeadScheme}
    {key nonce associated sealed plaintext : Bytes}
    (decrypted : scheme.decrypt key nonce associated sealed = some plaintext) :
    scheme.encrypt key nonce associated plaintext = some sealed := by
  rw [decrypt] at decrypted
  dsimp only at decrypted
  split at decrypted
  case isTrue whole =>
    obtain ⟨long, admitted⟩ := whole
    split at decrypted
    case isTrue genuine =>
      cases decrypted
      have length : (sealed.take (sealed.length - scheme.tagLength)).length =
          sealed.length - scheme.tagLength := List.length_take_of_le (Nat.sub_le _ _)
      rw [encrypt, length_mask, length, if_pos admitted, mask_mask]
      dsimp only
      rw [← genuine, List.take_append_drop]
    case isFalse => cases decrypted
  case isFalse => cases decrypted

namespace AeadAlgorithm

variable {algorithm : AeadAlgorithm} {key nonce associated plaintext sealed : Bytes}

theorem checkLengths_eq_ok :
    algorithm.checkLengths key nonce = .ok () ↔
      key.length = algorithm.keyLength ∧ nonce.length = algorithm.nonceLength := by
  rw [checkLengths, refuse_eq_ok, refuse_eq_ok, Decidable.not_not, Decidable.not_not]
  simp only [and_true]

theorem encrypt_eq_ok :
    algorithm.encrypt key nonce associated plaintext = .ok sealed ↔
      key.length = algorithm.keyLength ∧ nonce.length = algorithm.nonceLength ∧
        algorithm.scheme.encrypt key nonce associated plaintext = some sealed := by
  rw [encrypt, bind_eq_ok, ← and_assoc, ← checkLengths_eq_ok]
  cases algorithm.scheme.encrypt key nonce associated plaintext with
  | none => simp only [reduceCtorEq, and_false, exists_false]
  | some _ =>
    simp only [Except.ok.injEq, Option.some.injEq]
    exact ⟨fun ⟨_, both⟩ => both, fun both => ⟨(), both⟩⟩

theorem decrypt_eq_ok :
    algorithm.decrypt key nonce associated sealed = .ok plaintext ↔
      key.length = algorithm.keyLength ∧ nonce.length = algorithm.nonceLength ∧
        algorithm.scheme.decrypt key nonce associated sealed = some plaintext := by
  rw [decrypt, bind_eq_ok, ← and_assoc, ← checkLengths_eq_ok]
  cases algorithm.scheme.decrypt key nonce associated sealed with
  | none => simp only [reduceCtorEq, and_false, exists_false]
  | some _ =>
    simp only [Except.ok.injEq, Option.some.injEq]
    exact ⟨fun ⟨_, both⟩ => both, fun both => ⟨(), both⟩⟩

/-- A text is what a ciphertext decrypts to exactly when the ciphertext is what the text encrypts
to. -/
theorem decrypt_eq_ok_iff_encrypt :
    algorithm.decrypt key nonce associated sealed = .ok plaintext ↔
      algorithm.encrypt key nonce associated plaintext = .ok sealed := by
  rw [decrypt_eq_ok, encrypt_eq_ok]
  exact and_congr_right fun _ => and_congr_right fun _ =>
    ⟨AeadScheme.encrypt_of_decrypt, AeadScheme.decrypt_encrypt⟩

/-- Nothing but its length keeps a text from being encrypted under a derived key and nonce. -/
theorem exists_encrypt (keyLength : key.length = algorithm.keyLength)
    (nonceLength : nonce.length = algorithm.nonceLength)
    (admitted : algorithm.scheme.admits plaintext.length) :
    ∃ sealed, algorithm.encrypt key nonce associated plaintext = .ok sealed := by
  obtain ⟨sealed, encrypted⟩ :
      ∃ sealed, algorithm.scheme.encrypt key nonce associated plaintext = some sealed := by
    rw [AeadScheme.encrypt, if_pos admitted]
    exact ⟨_, rfl⟩
  exact ⟨sealed, encrypt_eq_ok.mpr ⟨keyLength, nonceLength, encrypted⟩⟩

end AeadAlgorithm

namespace SecurityContext

variable {context peer : SecurityContext} {keying : ResolvedKeying}

/-! ### What a message names -/

/-- A message that is encrypted under the key and the nonce of the identity that it names. -/
def ProtectedMessage.Consistent (message : ProtectedMessage) (context : SecurityContext)
    (associated plaintext : Bytes) : Prop :=
  ∃ named nonce, context.keying.entity message.sender .sender = .ok named ∧
    named.nonce message.partialIv = .ok nonce ∧
    context.algorithm.encrypt named.key nonce associated plaintext = .ok message.ciphertext

theorem unprotectFrom_eq_ok {entity : Entity} {sequence : Nat}
    {partialIv associated ciphertext plaintext : Bytes} :
    (peer.unprotectFrom entity sequence partialIv associated ciphertext).answer = .ok plaintext ↔
      entity.isReplay sequence = false ∧ ∃ nonce, entity.nonce partialIv = .ok nonce ∧
        peer.algorithm.encrypt entity.key nonce associated plaintext = .ok ciphertext := by
  simp only [← AeadAlgorithm.decrypt_eq_ok_iff_encrypt]
  rw [unprotectFrom]
  split
  · rename_i refusal refused
    constructor
    · intro answered
      cases answered
    · rintro ⟨fresh, nonce, made, decrypted⟩
      simp only [fresh, made, Bool.false_eq_true, if_false, throw_bind] at refused
      change (peer.algorithm.decrypt entity.key nonce associated ciphertext).mapError
        Refusal.failure = .error refusal at refused
      rw [decrypted] at refused
      cases refused
  · rename_i text opened
    simp only [throw_bind, refuse_eq_ok, bind_eq_ok, mapError_eq_ok, Bool.not_eq_true] at opened
    obtain ⟨fresh, nonce, made, decrypted⟩ := opened
    show (peer.acceptFrom entity sequence).answer.map (fun _ => text) = .ok plaintext ↔ _
    rw [acceptFrom_eq_ok.mpr fresh, made]
    constructor
    · intro answered
      cases answered
      exact ⟨fresh, nonce, rfl, decrypted⟩
    · rintro ⟨-, _, same, other⟩
      cases same
      cases decrypted.symm.trans other
      rfl

/-- A message that a recipient has not seen opens to what encrypts to it, and to nothing else. -/
theorem unprotect_eq_ok {id partialIv associated ciphertext plaintext : Bytes} {entity : Entity}
    {sequence : Nat} {nonce : Bytes} (found : peer.recipient? id = some entity)
    (decoded : PartialIv.decode partialIv = .ok sequence)
    (fresh : entity.isReplay sequence = false) (made : entity.nonce partialIv = .ok nonce) :
    (peer.unprotect id partialIv associated ciphertext).answer = .ok plaintext ↔
      peer.algorithm.encrypt entity.key nonce associated plaintext = .ok ciphertext := by
  rw [unprotect, decoded, recipient_eq_ok.mpr found]
  show (peer.unprotectFrom entity sequence partialIv associated ciphertext).answer = _ ↔ _
  simp only [unprotectFrom_eq_ok, fresh, made, Except.ok.injEq, exists_eq_left', true_and]

theorem encryptReserved_eq_ok {reserved : ReservedNonce} {associated plaintext : Bytes}
    {message : ProtectedMessage} :
    context.encryptReserved reserved associated plaintext = .ok message ↔
      context.algorithm.encrypt context.sender.key reserved.nonce associated plaintext =
          .ok message.ciphertext ∧
        message.sender = reserved.sender ∧ message.partialIv = reserved.partialIv := by
  simp only [encryptReserved, bind_eq_ok, mapError_eq_ok, pure_eq_ok]
  constructor
  · rintro ⟨ciphertext, encrypted, rfl⟩
    exact ⟨encrypted, rfl, rfl⟩
  · rintro ⟨encrypted, sender, partialIv⟩
    exact ⟨message.ciphertext, encrypted, by rw [← sender, ← partialIv]⟩

theorem Sound.reserved_eq (sound : context.Sound keying) {reserved : ReservedNonce}
    (answered : context.reserve.answer = .ok reserved) :
    reserved = (context.upcoming keying).toReservedNonce ∧
      context.sender.sequence < sequenceCeiling := by
  have taken : Operation.reserve.reservation context = some { reserved with
      generation := context.formerSenders.length, key := context.sender.key } := by
    rw [Operation.reservation, answered]
    rfl
  obtain ⟨-, left, equal⟩ := sound.reservation_eq_some.mp taken
  exact ⟨congrArg Reservation.toReservedNonce equal,
    Nat.lt_of_lt_of_le left sound.bounded.maximum_le⟩

/-- Every sender over one keying has a key that takes the nonce that is next in turn. -/
theorem Sound.exists_encrypt {later : SecurityContext} (sound : context.Sound keying)
    (laterSound : later.Sound keying) (associated plaintext : Bytes)
    (admitted : keying.aead.scheme.admits plaintext.length) :
    ∃ ciphertext, later.algorithm.encrypt later.sender.key (context.upcoming keying).nonce
      associated plaintext = .ok ciphertext := by
  have keyLength : later.sender.key.length = keying.aead.keyLength := by
    rw [laterSound.derived.key_eq, ResolvedKeying.length_keyOf]
  rw [laterSound.algorithm_eq]
  exact AeadAlgorithm.exists_encrypt keyLength sound.length_nonce_upcoming admitted

/-- Whether a peer holds the entity of an identity and did not accept a number from it yet. -/
def Awaits (peer : SecurityContext) (algorithm : AeadAlgorithm) (named : Entity)
    (sequence : Nat) : Prop :=
  peer.algorithm = algorithm ∧ ∃ entity, peer.recipient? named.id = some entity ∧
    entity.key = named.key ∧ entity.baseIv = named.baseIv ∧ entity.isReplay sequence = false

/-- Whoever adds a member awaits every number of it. -/
theorem awaits_of_addRecipient {id : Bytes} {key : SigningKey}
    (known : context.keying.resolve = .ok keying) (added : context.addRecipient id key = .ok peer)
    (sequence : Nat) : peer.Awaits context.algorithm (keying.fresh id none) sequence := by
  obtain ⟨-, free, _, again, -, rfl⟩ := addRecipient_eq_ok.mp added
  cases known.symm.trans again
  refine ⟨rfl, { keying.fresh id (some (.empty 0 keying.limits.window)) with
    signingKey := some key }, ?_, rfl, rfl, ReplayWindow.contains_empty _ sequence⟩
  have last : ∀ entity : Entity, entity.id = id →
      (context.recipients ++ [entity]).find? (fun entity => entity.id = id) = some entity := by
    intro entity same
    rw [List.find?_append, ← recipient?, free, Option.none_or, List.find?_cons_of_pos]
    exact decide_eq_true same
  exact last _ rfl

end SecurityContext

/-! ### Two looks at one context -/

namespace Endpoint

variable {Handler Application : Type} {behaviour : Behaviour Handler Application}
  {endpoint later : Endpoint Handler Application} {ref : ContextRef}
  {associated plaintext : Bytes} {message : SecurityContext.ProtectedMessage}

theorem protect_eq_ok :
    protect behaviour ref associated plaintext endpoint = (.ok message, later) ↔
      ∃ reserved, reserve behaviour ref endpoint = (.ok reserved, later) ∧
        (later.context ref).encryptReserved reserved associated plaintext = .ok message := by
  rw [protect, Action.bind_apply]
  obtain ⟨refusal | reserved, between⟩ := reserve behaviour ref endpoint
  · constructor
    · intro equal
      cases (Prod.mk.inj equal).1
    · rintro ⟨_, equal, _⟩
      cases (Prod.mk.inj equal).1
  · constructor
    · intro equal
      obtain ⟨encrypted, rfl⟩ := Prod.mk.inj equal
      exact ⟨reserved, rfl, encrypted⟩
    · rintro ⟨other, equal, encrypted⟩
      obtain ⟨same, rfl⟩ := Prod.mk.inj equal
      cases same
      exact congrArg (fun answer => (answer, between)) encrypted

/-- Only a context that is there takes nonces. -/
theorem inside_of_reserve {reserved : SecurityContext.ReservedNonce}
    (answered : reserve behaviour ref endpoint = (.ok reserved, later)) :
    ref.index < endpoint.contexts.length := by
  by_cases inside : ref.index < endpoint.contexts.length
  · exact inside
  · rw [reserve, perform_eq, context_of_dangling inside] at answered
    cases congrArg Prod.fst answered

/-- The nonce of a message comes from the first look at the context, the key from the second. -/
theorem protect_looks (lawful : behaviour.Lawful) (sound : endpoint.Sound)
    (answered : protect behaviour ref associated plaintext endpoint = (.ok message, later)) :
    ∃ keying, (endpoint.context ref).Sound keying ∧ (later.context ref).Sound keying ∧
      message.sender.length ≤ keying.aead.identifierCapacity ∧
      (∃ sequence, sequence < sequenceCeiling ∧
        message.partialIv = PartialIv.encode sequence) ∧
      (endpoint.context ref).algorithm.encrypt (later.context ref).sender.key
        (keying.nonceOf message.sender message.partialIv) associated plaintext =
          .ok message.ciphertext := by
  obtain ⟨reserved, taken, encryption⟩ := protect_eq_ok.mp answered
  have inside := inside_of_reserve taken
  obtain ⟨keying, contextSound⟩ := (sound ref inside).sound
  have evolves : endpoint.Evolves later := by
    have evolution := @reserve_lawful _ _ _ ref lawful endpoint sound
    rwa [taken] at evolution
  obtain ⟨-, operations, reached⟩ := evolves.context inside
  have laterSound : (later.context ref).Sound keying := by
    rw [reached]
    exact contextSound.after operations
  rw [reserve, perform_eq] at taken
  obtain ⟨rfl, small⟩ := contextSound.reserved_eq (Prod.mk.inj taken).1
  obtain ⟨encrypted, sender, partialIv⟩ := SecurityContext.encryptReserved_eq_ok.mp encryption
  rw [laterSound.algorithm_eq, ← contextSound.algorithm_eq] at encrypted
  refine ⟨keying, contextSound, laterSound, ?_, ⟨_, small, partialIv⟩, ?_⟩
  · rw [sender]
    exact contextSound.derived.id_fits
  · rw [sender, partialIv]
    exact encrypted

/-- A message names the sender that took its nonce, and is encrypted with the key of the sender
that stands when the handlers are done. It is consistent, and opens wherever it is awaited,
exactly when both keys encrypt it alike, and so whenever the handlers left the sender in its
place. -/
theorem protect_consistent_iff (lawful : behaviour.Lawful) (sound : endpoint.Sound)
    (answered : protect behaviour ref associated plaintext endpoint = (.ok message, later)) :
    ∃ named standing nonce sequence,
      (endpoint.context ref).keying.entity message.sender .sender = .ok named ∧
      (endpoint.context ref).keying.entity (later.context ref).sender.id .sender = .ok standing ∧
      PartialIv.decode message.partialIv = .ok sequence ∧
      named.nonce message.partialIv = .ok nonce ∧
      (endpoint.context ref).algorithm.encrypt standing.key nonce associated plaintext =
        .ok message.ciphertext ∧
      (message.Consistent (endpoint.context ref) associated plaintext ↔
        (endpoint.context ref).algorithm.encrypt named.key nonce associated plaintext =
          (endpoint.context ref).algorithm.encrypt standing.key nonce associated plaintext) ∧
      ((later.context ref).sender.id = message.sender →
        message.Consistent (endpoint.context ref) associated plaintext) ∧
      ∀ peer : SecurityContext, peer.Awaits (endpoint.context ref).algorithm named sequence →
        ((peer.unprotect message.sender message.partialIv associated message.ciphertext).answer =
            .ok plaintext ↔
          message.Consistent (endpoint.context ref) associated plaintext) := by
  obtain ⟨keying, contextSound, laterSound, fits, ⟨sequence, small, partialIv⟩, encrypted⟩ :=
    protect_looks lawful sound answered
  have named := Keying.entity_sender contextSound.resolved fits
  have standing := Keying.entity_sender contextSound.resolved laterSound.derived.id_fits
  have positive : 0 < message.partialIv.length := by
    rw [partialIv]
    exact PartialIv.length_encode_pos sequence
  have short : message.partialIv.length ≤ partialIvReserved := by
    rw [partialIv]
    exact PartialIv.length_encode_le (Nat.le_of_lt small)
  have namedDerived : (keying.fresh message.sender none).DerivedBy keying := ⟨fits, rfl, rfl⟩
  have nonce : (keying.fresh message.sender none).nonce message.partialIv =
      .ok (keying.nonceOf message.sender message.partialIv) :=
    namedDerived.nonce_eq positive short
  have decoded : PartialIv.decode message.partialIv = .ok sequence := by
    rw [partialIv, PartialIv.decode_encode (Nat.le_of_lt small)]
  rw [laterSound.derived.key_eq] at encrypted
  have consistent : message.Consistent (endpoint.context ref) associated plaintext ↔
      (endpoint.context ref).algorithm.encrypt (keying.keyOf message.sender)
        (keying.nonceOf message.sender message.partialIv) associated plaintext =
          .ok message.ciphertext := by
    constructor
    · rintro ⟨_, _, identity, made, alike⟩
      cases named.symm.trans identity
      cases nonce.symm.trans made
      exact alike
    · intro alike
      exact ⟨_, _, named, nonce, alike⟩
  refine ⟨_, _, _, sequence, named, standing, decoded, nonce, encrypted, ?_, ?_, ?_⟩
  · rw [consistent, ← encrypted]
    rfl
  · intro same
    rw [consistent, ← same]
    rw [← same] at encrypted
    exact encrypted
  · rintro peer ⟨sameAlgorithm, entity, found, sameKey, sameIv, fresh⟩
    have there : peer.recipient? message.sender = some entity := found
    have entityNonce : entity.nonce message.partialIv =
        .ok (keying.nonceOf message.sender message.partialIv) := by
      rw [← nonce, Entity.nonce, Entity.nonce, sameIv]
    rw [SecurityContext.unprotect_eq_ok there decoded fresh entityNonce, consistent,
      sameAlgorithm, sameKey]
    rfl

/-! ### A handler that replaces the sender -/

/-- An endpoint with one context, and one handler on its channel. -/
def handling (context : SecurityContext) : Endpoint Unit Unit where
  channels := [{ handlers := [(0, ())], issued := 1 }]
  contexts := [{ context, channel := ⟨0⟩ }]
  application := ()

/-- The sender is replaced before the nonce is handed out, if the handler is told one thing. -/
theorem reserve_replacing {context replaced : SecurityContext} {id : Bytes} {key : SigningKey}
    {reserved : SecurityContext.ReservedNonce} {notice : Notice}
    (answer : context.reserve.answer = .ok reserved) (notices : context.reserve.notices = [notice])
    (replaces : context.reserve.context.replaceSender id key = .ok replaced) :
    reserve (.doing (replaceSender ⟨0⟩ id key)) ⟨0⟩ (handling context) =
      (.ok reserved, handling replaced) := by
  have made : ((handling context.reserve.context).context ⟨0⟩).replaceSender id key =
      .ok replaced := replaces
  have handled : replaceSender ⟨0⟩ id key (handling context.reserve.context) =
      (.ok (), handling replaced) := by
    rw [replaceSender, change_eq, made]
    rfl
  rw [reserve, perform_eq]
  show (context.reserve.answer, (announce _ ⟨0⟩ context.reserve.notices
    (handling context.reserve.context)).2) = _
  rw [answer, notices]
  exact congrArg (Prod.mk _) (congrArg Prod.snd handled)

/-- A handler that replaces the sender while it is told to persist the number leaves a message
under the name of the first sender and the key of the second. -/
theorem protect_while_replacing :
    ∃ (behaviour : Behaviour Unit Unit) (endpoint later : Endpoint Unit Unit)
      (message : SecurityContext.ProtectedMessage) (named standing : Entity) (nonce : Bytes),
      behaviour.Lawful ∧ endpoint.Sound ∧
      protect behaviour ⟨0⟩ [0xa1] [0x68] endpoint = (.ok message, later) ∧
      message.sender = [0x0a] ∧ (later.context ⟨0⟩).sender.id = [0x0c] ∧
      (endpoint.context ⟨0⟩).keying.entity [0x0a] .sender = .ok named ∧
      (endpoint.context ⟨0⟩).keying.entity [0x0c] .sender = .ok standing ∧
      named.nonce message.partialIv = .ok nonce ∧
      (endpoint.context ⟨0⟩).algorithm.encrypt standing.key nonce [0xa1] [0x68] =
        .ok message.ciphertext ∧
      ∃ peer : SecurityContext, peer.Awaits (endpoint.context ⟨0⟩).algorithm named 0 ∧
        ((peer.unprotect message.sender message.partialIv [0xa1] message.ciphertext).answer =
            .ok [0x68] ↔
          (endpoint.context ⟨0⟩).algorithm.encrypt named.key nonce [0xa1] [0x68] =
            (endpoint.context ⟨0⟩).algorithm.encrypt standing.key nonce [0xa1] [0x68]) := by
  obtain ⟨key, -, fits⟩ := @SecurityContext.exists_ofSeed (List.replicate 32 0x11) rfl
  let keying : ResolvedKeying := ⟨[1], [], none, .aesCcm8, .sha256, { interval := 1 }⟩
  have known : Keying.resolve { secret := [1], limits := { interval := 1 } } = .ok keying := rfl
  obtain ⟨context, derived, sound, sender, -, -, leaves⟩ :=
    @SecurityContext.deriveGroup_alone _ _ [0x0a] key known (by decide) fits 1
  obtain ⟨_, left⟩ := (leaves [0x0c] (by decide)).1 (by decide)
  obtain ⟨replaced, leftAfter⟩ := SecurityContext.replaceSender_of_reserve left
  -- the first look takes the first nonce and reminds the handler
  have unused : context.sender.id = [0x0a] ∧ context.sender.sequence = 0 ∧
      context.sender.interval = 1 ∧ context.sender.maximum = 0xFFFFF := by
    rw [sender]
    exact ⟨rfl, rfl, rfl, rfl⟩
  obtain ⟨senderId, sequence, interval, maximum⟩ := unused
  have reservation := sound.reserve_eq_of_left (by rw [sequence, maximum]; decide)
  have notices : context.reserve.notices = [.persist [0x0a] 1] := by
    rw [reservation, sequence, interval, senderId]
    rfl
  have looked := reserve_replacing (congrArg Outcome.answer reservation) notices leftAfter
  -- the second look finds the other key
  obtain ⟨ciphertext, encrypted⟩ := sound.exists_encrypt
    ((sound.next .reserve).replaceSender leftAfter) [0xa1] [0x68] (by decide)
  have answered : protect (.doing (replaceSender ⟨0⟩ [0x0c] key)) ⟨0⟩ [0xa1] [0x68]
      (handling context) = (.ok ⟨[0x0a], PartialIv.encode 0, ciphertext⟩, handling replaced) := by
    refine protect_eq_ok.mpr ⟨_, looked, SecurityContext.encryptReserved_eq_ok.mpr
      ⟨encrypted, senderId.symm, ?_⟩⟩
    rw [SecurityContext.upcoming, sequence]
  have replacedId : replaced.sender.id = [0x0c] := by
    obtain ⟨-, -, -, _, -, -, rfl⟩ := SecurityContext.replaceSender_eq_ok.mp leftAfter
    rfl
  have endpointSound : (handling context).Sound := sound_of_single rfl (.deriveGroup derived)
  have lawful := Behaviour.doing_lawful (@replaceSender_lawful Unit Unit ⟨0⟩ [0x0c] key)
  obtain ⟨named, standing, nonce, number, identity, other, decoded, made, under, alike, -, opens⟩ :=
    protect_consistent_iff lawful endpointSound answered
  -- a peer of the same keying that added the first identifier as a member
  obtain ⟨host, -, hostSound, -, -, -, adds⟩ :=
    @SecurityContext.deriveGroup_alone _ _ [0x0b] key known (by decide) fits 1
  obtain ⟨peer, added⟩ := (adds [0x0a] (by decide)).2
  have awaits : peer.Awaits context.algorithm named 0 := by
    have short : [0x0a].length ≤ keying.aead.identifierCapacity := by decide
    cases (Keying.entity_sender sound.resolved short).symm.trans identity
    rw [sound.algorithm_eq, ← hostSound.algorithm_eq]
    exact SecurityContext.awaits_of_addRecipient hostSound.resolved added 0
  cases (PartialIv.decode_encode (Nat.zero_le _)).symm.trans decoded
  refine ⟨_, _, _, _, named, standing, nonce, lawful, endpointSound, answered, rfl, replacedId,
    identity, ?_, made, under, peer, awaits, (opens peer awaits).trans alike⟩
  rw [← replacedId]
  exact other

end Endpoint

end Oscore
