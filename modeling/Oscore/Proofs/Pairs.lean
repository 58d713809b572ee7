/-
This file says that the pairwise contexts of two members mirror each other. Each
member derives its own from the context that it has of the group, and the two
contexts of the group need not have anything in common but their keying. What a
pair is derived from is the group keys of both members, which the keying and
their identifiers determine, and the secret that the signing keys agree on. So
nothing else that happened in either context makes a difference: a pair is the
same however often and whenever it is derived, up to its number.
-/

import Mathlib.Data.List.Nodup
import Oscore.Proofs.Acceptances
import Oscore.Proofs.Mirrors

namespace Oscore

/-! ### Agreement -/

namespace SigningKey

/-- Two keys with one public half, whatever else they hold. -/
def SamePublic (first second : SigningKey) : Prop :=
  first.publicHalf.material = second.publicHalf.material

theorem samePublic_publicHalf (key : SigningKey) : key.publicHalf.SamePublic key := by
  obtain ⟨_, _ | _⟩ := key <;> rfl

theorem fits_publicHalf (key : SigningKey) (algorithm : SignatureAlgorithm) :
    key.publicHalf.fits algorithm = key.fits algorithm := by
  obtain ⟨_, _ | _⟩ := key <;> rfl

/-- Agreement asks the peer for its public half only. -/
theorem agree_congr {first second : SigningKey} (same : first.SamePublic second)
    (key : SigningKey) (size : Nat) : key.agree first size = key.agree second size := by
  obtain ⟨_, firstMaterial⟩ := first
  obtain ⟨_, secondMaterial⟩ := second
  obtain ⟨_, material⟩ := key
  cases firstMaterial <;> cases secondMaterial <;> cases same <;>
    rcases material with ⟨_ | _, _⟩ | ⟨_ | _, _⟩ <;> rfl

theorem padSecret_of_length {size : Nat} {secret : Bytes} (long : secret.length = size) :
    ∃ shared, padSecret size secret = .ok shared ∧ shared.length = size := by
  have short : secret.length ≤ size := Nat.le_of_eq long
  exact ⟨_, if_pos short, Bytes.length_padLeft short⟩

/-- A private key and a key of the same curve agree on a secret of 32 bytes. -/
theorem agree_isOk {key peer : SigningKey} {algorithm : SignatureAlgorithm}
    (fits : key.fits algorithm) (peerFits : peer.fits algorithm) (holds : key.isPrivate) :
    ∃ shared, key.agree peer pairwiseSecretLength = .ok shared ∧
      shared.length = pairwiseSecretLength := by
  have curve : key.algorithm = peer.algorithm := by
    rw [SigningKey.fits, Bool.and_eq_true, decide_eq_true_eq] at fits peerFits
    exact fits.1.trans peerFits.1.symm
  obtain ⟨declared, material⟩ := key
  obtain ⟨peerDeclared, peerMaterial⟩ := peer
  cases material with
  | p256 scalar point =>
    obtain ⟨scalar, rfl⟩ := Option.isSome_iff_exists.mp holds
    cases peerMaterial with
    | p256 _ peerPoint =>
      refine padSecret_of_length ?_
      rw [P256.agree]
      split <;> exact Bytes.length_bigEndian _ _
    | ed25519 _ _ => cases curve
  | ed25519 seed encoding =>
    obtain ⟨seed, rfl⟩ := Option.isSome_iff_exists.mp holds
    cases peerMaterial with
    | p256 _ _ => cases curve
    | ed25519 _ peerEncoding => exact padSecret_of_length (Bytes.length_littleEndian _ _)

theorem ofScalar_eq_ok {bytes : Bytes} {scalar : Nat} {point : P256.Point}
    (read : P256.scalar? bytes = some scalar) (made : P256.publicPoint? scalar = some point) :
    ofScalar bytes = .ok { declared := none, material := .p256 (some scalar) point } := by
  simp only [ofScalar, read, made]

/-- Two keys of P-256 whose agreement gives one secret from either side. -/
theorem exists_agreeing : ∃ key peer : SigningKey,
    ofScalar (Bytes.bigEndian 32 1) = .ok key ∧ ofScalar (Bytes.bigEndian 32 2) = .ok peer ∧
    key.publicBytes ≠ peer.publicBytes ∧ key.fits .es256 ∧ peer.fits .es256 ∧ key.isPrivate ∧
    key.agree peer pairwiseSecretLength = peer.agree key pairwiseSecretLength := by
  obtain ⟨point, made, different, agreed⟩ : ∃ point, P256.publicPoint? 2 = some point ∧
      P256.generator.encode ≠ point.encode ∧
      P256.agree 1 point = P256.agree 2 P256.generator :=
    ⟨(P256.publicPoint? 2).getD P256.generator, by decide +kernel, by decide +kernel,
      by decide +kernel⟩
  exact ⟨_, _, ofScalar_eq_ok (by decide) (by decide +kernel : _ = some P256.generator),
    ofScalar_eq_ok (by decide) made, different, rfl, rfl, rfl,
    congrArg (padSecret pairwiseSecretLength) agreed⟩

end SigningKey

namespace SecurityContext

variable {context before later other group : SecurityContext} {keying : ResolvedKeying}
  {own peer : Bytes} {ownKey peerKey : SigningKey}

/-! ### Contexts of one group -/

/-- The contexts of the groups of one keying: those that are derived, copied and operated on. -/
inductive OfGroup (keying : Keying) : SecurityContext → Prop
  | derive {parameters : GroupParameters} {number : Nat} {context : SecurityContext}
      (same : parameters.keying = keying)
      (derived : deriveGroup parameters number = .ok context) : OfGroup keying context
  | duplicate {context : SecurityContext} (grouped : OfGroup keying context) :
      OfGroup keying context.duplicate
  | operation {context : SecurityContext} (grouped : OfGroup keying context)
      (operation : Operation) : OfGroup keying (operation.next context)

theorem OfGroup.after {keying : Keying} (grouped : OfGroup keying context)
    (operations : List Operation) : OfGroup keying (context.after operations) := by
  induction operations generalizing context with
  | nil => exact grouped
  | cons operation rest inductionHypothesis =>
    exact inductionHypothesis (grouped.operation operation)

theorem Uniform.duplicate (uniform : context.Uniform keying) :
    context.duplicate.Uniform keying := by
  refine ⟨uniform.toSound.duplicate, ?_⟩
  have copied : ∀ entity : Entity, entity.DerivedBy keying → entity.duplicate.DerivedBy keying :=
    fun _ derived => ⟨derived.id_fits, derived.key_eq, derived.baseIv_eq⟩
  intro entity member
  rcases List.mem_cons.mp member with rfl | recipient
  · exact copied _ uniform.derived
  · obtain ⟨original, there, rfl⟩ := List.mem_map.mp recipient
    exact copied _ (uniform.all_derived original
      (List.mem_append_right _ (List.mem_cons_of_mem _ there)))

/-- All entities of a group come from its keying. -/
theorem OfGroup.uniform {keying : Keying} (grouped : OfGroup keying context) :
    ∃ resolved, keying.resolve = .ok resolved ∧ context.Uniform resolved := by
  induction grouped with
  | derive same derived =>
    subst same
    obtain ⟨_, _, _, gives, rfl⟩ := deriveGroup_eq_ok_context.mp derived
    obtain ⟨⟨resolved, uniform⟩, -⟩ := starts_of_deriveGroup gives.members_eq derived
    exact ⟨resolved, uniform.resolved, uniform⟩
  | duplicate _ inductionHypothesis =>
    obtain ⟨resolved, known, uniform⟩ := inductionHypothesis
    exact ⟨resolved, known, uniform.duplicate⟩
  | operation _ operation inductionHypothesis =>
    obtain ⟨resolved, known, uniform⟩ := inductionHypothesis
    exact ⟨resolved, known, uniform.changes (operation.changes_next _)⟩

/-! ### Members that know each other -/

/-- A context whose sender has an identifier and a signing key, and which has a member of another
identifier with the public half of another key. -/
structure Knows (context : SecurityContext) (own : Bytes) (ownKey : SigningKey) (peer : Bytes)
    (peerKey : SigningKey) : Prop where
  sender_id : context.sender.id = own
  sender_key : context.sender.signingKey = some ownKey
  member : ∃ entity, context.recipient? peer = some entity ∧
    ∃ key, entity.signingKey = some key ∧ key.SamePublic peerKey

theorem Knows.setEntity (knows : before.Knows own ownKey peer peerKey) {place : Place}
    {entity next : Entity} (found : before.entity? place = some entity)
    (sameId : next.id = entity.id) (sameKey : next.signingKey = entity.signingKey) :
    (before.setEntity place next).Knows own ownKey peer peerKey := by
  cases place with
  | sender generation =>
    rw [SecurityContext.setEntity]
    split
    · rename_i current
      rw [current] at found
      cases before.entity?_senderPlace.symm.trans found
      exact ⟨sameId.trans knows.sender_id, sameKey.trans knows.sender_key, knows.member⟩
    · exact ⟨knows.sender_id, knows.sender_key, knows.member⟩
  | recipient id =>
    refine ⟨knows.sender_id, knows.sender_key, ?_⟩
    obtain ⟨member, there, key, held, same⟩ := knows.member
    show ∃ entity, (before.setRecipient next).recipient? peer = some entity ∧ _
    rw [recipient?_setRecipient, there]
    split
    · rename_i named
      -- the entity that is set stands where the member stood
      have place : id = peer := (id_of_recipient? found).symm.trans (sameId.symm.trans named)
      subst place
      cases found.symm.trans there
      exact ⟨next, rfl, key, sameKey.trans held, same⟩
    · exact ⟨member, rfl, key, held, same⟩

end SecurityContext

/-- Whether an operation leaves the sender and all signing keys in place. -/
def Operation.keepsKeys : Operation → Bool
  | replaceSender _ _ => false
  | adjust _ (.setSigningKey _) => false
  | _ => true

/-- Only one adjustment changes the signing key. -/
theorem Adjustment.signingKey_result {adjustment : Adjustment} {place : Place}
    (keeps : (Operation.adjust place adjustment).keepsKeys) (entity : Entity) :
    (adjustment.result entity).signingKey = entity.signingKey := by
  rw [result]
  cases applied : adjustment.apply entity with
  | error refusal => rfl
  | ok next =>
    show next.signingKey = entity.signingKey
    cases adjustment with
    | advance =>
      obtain ⟨⟨persist, advanced⟩, taken, rfl⟩ := map_eq_ok.mp applied
      obtain ⟨-, -, rfl⟩ := Entity.advance_eq_ok.mp taken
      rfl
    | restore value =>
      cases (refuse_eq_ok.mp applied).2
      rfl
    | setMaximum maximum =>
      cases (refuse_eq_ok.mp applied).2
      rfl
    | setInterval interval =>
      cases (refuse_eq_ok.mp applied).2
      rfl
    | setSigningKey key => cases keeps
    | mark sequence =>
      cases applied
      rfl
    | reset base =>
      cases applied
      rfl
    | replaceWindow window =>
      cases (refuse_eq_ok.mp applied).2
      rfl
    | renew =>
      cases applied
      rfl

namespace SecurityContext

variable {context before later other group : SecurityContext} {keying : ResolvedKeying}
  {own peer : Bytes} {ownKey peerKey : SigningKey}

theorem Knows.reserve (knows : context.Knows own ownKey peer peerKey) :
    context.reserve.context.Knows own ownKey peer peerKey := by
  rw [SecurityContext.reserve]
  split
  · exact knows
  · split
    · exact knows
    · rename_i advanced
      obtain ⟨-, -, rfl⟩ := Entity.advance_eq_ok.mp advanced
      exact ⟨knows.sender_id, knows.sender_key, knows.member⟩

theorem Knows.acceptFrom (knows : context.Knows own ownKey peer peerKey) {id : Bytes}
    {entity : Entity} (found : context.recipient? id = some entity) (sequence : Nat) :
    (context.acceptFrom entity sequence).context.Knows own ownKey peer peerKey := by
  rw [SecurityContext.acceptFrom]
  split
  · exact knows
  · rename_i accepted
    have place : context.entity? (.recipient id) = some entity := found
    obtain ⟨-, ⟨-, -, rfl⟩ | ⟨_, -, -, rfl⟩⟩ := Entity.accept_eq_ok.mp accepted
    · exact knows.setEntity place rfl rfl
    · exact knows.setEntity place rfl rfl

theorem Knows.record (knows : context.Knows own ownKey peer peerKey) (id : Bytes)
    (sequence : Nat) : (context.record id sequence).context.Knows own ownKey peer peerKey := by
  rcases context.record_cases id sequence with ⟨_, refused⟩ | ⟨entity, found, accepts⟩
  · rw [refused]
    exact knows
  · rw [accepts]
    exact knows.acceptFrom found sequence

theorem Knows.unprotect (knows : context.Knows own ownKey peer peerKey)
    (id partialIv associated ciphertext : Bytes) :
    (context.unprotect id partialIv associated ciphertext).context.Knows own ownKey peer
      peerKey := by
  rcases context.unprotect_cases id partialIv associated ciphertext with
    ⟨_, refused⟩ | ⟨entity, sequence, _, found, accepts⟩
  · rw [refused]
    exact knows
  · rw [accepts]
    exact knows.acceptFrom found sequence

/-- A new recipient is found where there was none. -/
theorem recipient?_append (context : SecurityContext) (new : Entity) (id : Bytes) :
    ({ context with recipients := context.recipients ++ [new] } : SecurityContext).recipient? id =
      (context.recipient? id).or (if new.id = id then some new else none) := by
  rw [recipient?, List.find?_append, List.find?_singleton, ← recipient?]
  simp only [decide_eq_true_eq]

theorem Knows.addRecipient (knows : before.Knows own ownKey peer peerKey) {id : Bytes}
    {key : SigningKey} (added : before.addRecipient id key = .ok later) :
    later.Knows own ownKey peer peerKey := by
  obtain ⟨-, -, _, -, -, rfl⟩ := addRecipient_eq_ok.mp added
  obtain ⟨member, there, known⟩ := knows.member
  refine ⟨knows.sender_id, knows.sender_key, member, ?_, known⟩
  rw [recipient?_append, there, Option.some_or]

/-- Members know each other until a sender or a signing key is replaced. -/
theorem Knows.next (knows : context.Knows own ownKey peer peerKey) {operation : Operation}
    (keeps : operation.keepsKeys) : (operation.next context).Knows own ownKey peer peerKey := by
  cases operation with
  | reserve => exact knows.reserve
  | protect associated plaintext => exact knows.reserve
  | unprotect id partialIv associated ciphertext => exact knows.unprotect _ _ _ _
  | record id sequence => exact knows.record id sequence
  | isReplay id sequence => exact knows
  | addRecipient id key =>
    rw [Operation.next]
    cases added : context.addRecipient id key with
    | error refusal => exact knows
    | ok larger => exact knows.addRecipient added
  | replaceSender id key => cases keeps
  | adjust place adjustment =>
    rw [Operation.next]
    split
    · rename_i entity found
      exact knows.setEntity found (entity.result_evolves adjustment).1.id_eq
        (adjustment.signingKey_result keeps entity)
    · exact knows

theorem Knows.after (knows : context.Knows own ownKey peer peerKey)
    {operations : List Operation} (keeps : ∀ operation ∈ operations, operation.keepsKeys) :
    (context.after operations).Knows own ownKey peer peerKey := by
  induction operations generalizing context with
  | nil => exact knows
  | cons operation rest inductionHypothesis =>
    obtain ⟨keepsNow, keepsRest⟩ := List.forall_mem_cons.mp keeps
    exact inductionHypothesis (knows.next keepsNow) keepsRest

/-! ### How members come to know each other -/

/-- A member that is added is known to the sender. -/
theorem knows_of_addRecipient {key : SigningKey} (sender : before.sender.id = own)
    (held : before.sender.signingKey = some ownKey) (same : key.SamePublic peerKey)
    (added : before.addRecipient peer key = .ok later) :
    later.Knows own ownKey peer peerKey := by
  obtain ⟨-, free, resolved, -, -, rfl⟩ := addRecipient_eq_ok.mp added
  refine ⟨sender, held, { resolved.fresh peer (some (.empty 0 resolved.limits.window)) with
    signingKey := some key }, ?_, key, rfl, same⟩
  rw [recipient?_append, free, Option.none_or]
  exact if_pos rfl

/-- Where identifiers are distinct, every recipient is found by its own. -/
theorem recipient?_of_mem (distinct : (context.recipients.map Entity.id).Nodup) {entity : Entity}
    (member : entity ∈ context.recipients) : context.recipient? entity.id = some entity := by
  cases found : context.recipient? entity.id with
  | none => exact absurd (decide_eq_true rfl) (List.find?_eq_none.mp found entity member)
  | some first =>
    rw [List.inj_on_of_nodup_map distinct (mem_of_recipient? found) member
      (id_of_recipient? found)]

/-- A listed member is found with its own key. -/
theorem recipient?_context {parameters : GroupParameters} {algorithm : SignatureAlgorithm}
    {keying : ResolvedKeying} {members : List (Bytes × SigningKey)}
    (gives : parameters.Gives algorithm keying members) (number : Nat)
    {member : Bytes × SigningKey} (there : member ∈ members) :
    (parameters.context number algorithm keying members).recipient? member.1 =
      some (keying.newMember member) := by
  have distinct := gives.distinct
  rw [← parameters.ids_context number algorithm keying] at distinct
  have entity : keying.newMember member ∈
      (parameters.context number algorithm keying members).recipients := List.mem_map_of_mem there
  exact recipient?_of_mem distinct entity

/-- A member that a group is derived with is known to the sender. -/
theorem knows_of_deriveGroup {parameters : GroupParameters} {members : List (Bytes × SigningKey)}
    {number : Nat} {key : SigningKey} (given : parameters.members = .ok members)
    (listed : (peer, key) ∈ members) (same : key.SamePublic peerKey)
    (derived : deriveGroup parameters number = .ok context) :
    context.Knows parameters.sender parameters.key peer peerKey := by
  obtain ⟨algorithm, keying, _, gives, rfl⟩ := deriveGroup_eq_ok_context.mp derived
  cases given.symm.trans gives.members_eq
  exact ⟨rfl, rfl, keying.newMember (peer, key), recipient?_context gives number listed, key, rfl,
    same⟩

end SecurityContext

/-! ### Deriving a pair -/

/-- What an entity of a pair is derived from: its group key, salted with the agreed secret. -/
def ResolvedKeying.paired (keying : ResolvedKeying) (shared id : Bytes) : ResolvedKeying where
  secret := keying.keyOf id
  salt := shared
  idContext := keying.idContext
  aead := keying.aead
  kdf := .sha256
  limits := keying.limits

namespace SecurityContext

variable {context before later other group : SecurityContext} {keying : ResolvedKeying}
  {own peer : Bytes} {ownKey peerKey : SigningKey}

/-- The context of a pair, seen from one of its members. -/
def pairOf (keying : ResolvedKeying) (shared own peer : Bytes) (number : Nat) :
    SecurityContext where
  number
  keying := {
    secret := keying.keyOf own
    salt := shared
    idContext := keying.idContext
    aead := keying.aead.identifier
    kdf := some KdfAlgorithm.sha256.identifier
    limits := keying.limits }
  algorithm := keying.aead
  countersigning := none
  sender := (keying.paired shared own).fresh own none
  formerSenders := []
  recipients := [(keying.paired shared peer).fresh peer (some (.empty 0 keying.limits.window))]

theorem between_pairOf (keying : ResolvedKeying) (shared own peer : Bytes) (number : Nat) :
    (pairOf keying shared own peer number).Between ((keying.paired shared own).identity own)
      ((keying.paired shared peer).identity peer) :=
  ⟨rfl, rfl, rfl⟩

/-- A pair depends on the keying of the group, on both identifiers and on the agreed secret, and
on nothing else that is in the context of the group. -/
theorem Uniform.derivePair_eq (uniform : context.Uniform keying)
    (knows : context.Knows own ownKey peer peerKey) {shared : Bytes}
    (agreed : ownKey.agree peerKey pairwiseSecretLength = .ok shared) (number : Nat) :
    context.derivePair peer number = .ok (pairOf keying shared own peer number) := by
  obtain ⟨-, -, -, -, -, idContext, limits⟩ := Keying.resolve_eq_ok.mp uniform.resolved
  obtain ⟨member, found, key, held, same⟩ := knows.member
  have derived := uniform.all_derived member
    (List.mem_append_right _ (List.mem_cons_of_mem _ (mem_of_recipient? found)))
  have sender := uniform.derived
  have algorithm := uniform.algorithm_eq
  have peerId := id_of_recipient? found
  rw [← SigningKey.agree_congr same] at agreed
  refine (derivePair_eq_ok uniform.window_pos).mpr
    ⟨member, found, ownKey, key, knows.sender_key, held, shared, agreed, ?_, ?_, ?_⟩
  · rw [algorithm]
    exact sender.id_fits
  · rw [algorithm]
    exact derived.id_fits
  · rw [pairKeying, pairResolved, pairResolved, groupId, algorithm, sender.key_eq, derived.key_eq,
      knows.sender_id, peerId, ← idContext, ← limits]
    rfl

/-- Two members of a group, each of which holds a private key whose public half the other knows,
derive contexts that mirror each other, if the agreement on a secret gives both the same. Both
derivations succeed in whatever state the contexts of the group are, as long as no sender and no
signing key is replaced, and their results differ from one time to another in the number alone.
Whatever is then done with the two contexts, each has the other's sender, in identifier, key and
IV, as its only recipient. -/
theorem derivePair_mirrors {keying : Keying} {algorithm : SignatureAlgorithm}
    (fits : ownKey.fits algorithm) (peerFits : peerKey.fits algorithm)
    (holds : ownKey.isPrivate)
    (agreed : ownKey.agree peerKey pairwiseSecretLength =
      peerKey.agree ownKey pairwiseSecretLength)
    (grouped : context.OfGroup keying) (otherGrouped : other.OfGroup keying)
    (knows : context.Knows own ownKey peer peerKey)
    (otherKnows : other.Knows peer peerKey own ownKey) :
    ∃ pair otherPair : Nat → SecurityContext,
      (∀ operations, (∀ operation ∈ operations, operation.keepsKeys) → ∀ number,
        (context.after operations).derivePair peer number = .ok (pair number) ∧
          (other.after operations).derivePair own number = .ok (otherPair number)) ∧
      (∀ number again, pair again = { pair number with number := again } ∧
        otherPair again = { otherPair number with number := again }) ∧
      (∀ number, (pair number).sender.id = own ∧
        (pair number).recipients.map Entity.id = [peer] ∧
        (otherPair number).sender.id = peer ∧
        (otherPair number).recipients.map Entity.id = [own]) ∧
      ∀ number otherNumber operations otherOperations,
        ((pair number).after operations).Mirrors
          ((otherPair otherNumber).after otherOperations) := by
  obtain ⟨resolved, known, -⟩ := grouped.uniform
  obtain ⟨shared, secret, -⟩ := SigningKey.agree_isOk fits peerFits holds
  have otherSecret := agreed.symm.trans secret
  -- every later state of either context gives the one pair that the keying determines
  have derives {group : SecurityContext} {here there : Bytes} {hereKey thereKey : SigningKey}
      (grouped : group.OfGroup keying) (knows : group.Knows here hereKey there thereKey)
      (secret : hereKey.agree thereKey pairwiseSecretLength = .ok shared)
      (operations : List Operation) (keeps : ∀ operation ∈ operations, operation.keepsKeys)
      (number : Nat) :
      (group.after operations).derivePair there number =
        .ok (pairOf resolved shared here there number) := by
    obtain ⟨_, again, uniform⟩ := (grouped.after operations).uniform
    cases known.symm.trans again
    exact uniform.derivePair_eq (knows.after keeps) secret number
  have sound {group : SecurityContext} {here there : Bytes} (grouped : group.OfGroup keying)
      {number : Nat} (derived : group.derivePair there number =
        .ok (pairOf resolved shared here there number)) :
      ∃ paired, (pairOf resolved shared here there number).Sound paired := by
    obtain ⟨_, -, uniform⟩ := grouped.uniform
    exact uniform.toSound.derivePair derived
  refine ⟨pairOf resolved shared own peer, pairOf resolved shared peer own, ?_, ?_, ?_, ?_⟩
  · intro operations keeps number
    exact ⟨derives grouped knows secret operations keeps number,
      derives otherGrouped otherKnows otherSecret operations keeps number⟩
  · intro number again
    exact ⟨rfl, rfl⟩
  · intro number
    exact ⟨rfl, rfl, rfl, rfl⟩
  · intro number otherNumber operations otherOperations
    obtain ⟨_, pairSound⟩ := sound grouped
      (derives grouped knows secret [] (fun _ member => nomatch member) number)
    obtain ⟨_, otherSound⟩ := sound otherGrouped
      (derives otherGrouped otherKnows otherSecret [] (fun _ member => nomatch member) otherNumber)
    exact (between_pairOf ..).mirrors_after pairSound (between_pairOf ..) otherSound operations
      otherOperations

/-- One member knows the other from the derivation of the group and has sent and received, the
other has added the first one later. -/
theorem derivePair_mirrors_es256 :
    ∃ key peerKey, SigningKey.ofScalar (Bytes.bigEndian 32 1) = .ok key ∧
      SigningKey.ofScalar (Bytes.bigEndian 32 2) = .ok peerKey ∧
      let parameters : GroupParameters := {
        keying := { secret := [1] }, sender := [0x0a], algorithm := -7, key := key
        identifiers := some [[0x0b]], keys := some [peerKey.publicHalf] }
      let peerParameters : GroupParameters := {
        keying := { secret := [1] }, sender := [0x0b], algorithm := -7, key := peerKey }
      ∃ context alone other, deriveGroup parameters 1 = .ok context ∧
        deriveGroup peerParameters 1 = .ok alone ∧
        alone.addRecipient [0x0a] key.publicHalf = .ok other ∧
        ∃ pair otherPair,
          (context.after [.reserve, .record [0x0b] 5]).derivePair [0x0b] 8 = .ok pair ∧
          other.derivePair [0x0a] 9 = .ok otherPair ∧ pair.Mirrors otherPair := by
  obtain ⟨key, peerKey, made, peerMade, -, fits, peerFits, holds, agreed⟩ :=
    SigningKey.exists_agreeing
  refine ⟨key, peerKey, made, peerMade, ?_⟩
  intro parameters peerParameters
  let resolved : ResolvedKeying := ⟨[1], [], none, .aesCcm8, .sha256, {}⟩
  have known : Keying.resolve { secret := [1] } = .ok resolved := rfl
  have publicFits : key.publicHalf.fits .es256 := by
    rw [SigningKey.fits_publicHalf]
    exact fits
  have peerPublicFits : peerKey.publicHalf.fits .es256 := by
    rw [SigningKey.fits_publicHalf]
    exact peerFits
  have short (byte : UInt8) : [byte].length ≤ resolved.aead.identifierCapacity :=
    (by decide : 1 ≤ AeadAlgorithm.aesCcm8.identifierCapacity)
  -- the first group is derived with its member
  obtain ⟨recipients, mapped⟩ : ∃ recipients,
      ([([0x0b], peerKey.publicHalf)].mapM fun member : Bytes × SigningKey =>
        resolved.member .es256 member.1 member.2) = .ok recipients := by
    rw [List.mapM_cons, (member_eq_ok (by decide)).mpr ⟨peerPublicFits, short _, rfl⟩]
    exact ⟨_, rfl⟩
  have derived := (@deriveGroup_eq_ok _ parameters 1).mpr
    ⟨_, rfl, rfl, .es256, rfl, fits, resolved, known, short _, recipients, mapped, rfl⟩
  have knows := knows_of_deriveGroup rfl List.mem_cons_self peerKey.samePublic_publicHalf derived
  -- the second is derived alone
  obtain ⟨alone, aloneDerived, senderId, senderKey, other, added⟩ : ∃ alone,
      deriveGroup peerParameters 1 = .ok alone ∧ alone.sender.id = [0x0b] ∧
        alone.sender.signingKey = some peerKey ∧
        ∃ other, alone.addRecipient [0x0a] key.publicHalf = .ok other :=
    ⟨_, deriveGroup_eq_ok.mpr
      ⟨[], rfl, rfl, .es256, rfl, peerFits, resolved, known, short _, [], rfl, rfl⟩, rfl, rfl, _,
      addRecipient_eq_ok.mpr ⟨⟨.es256, rfl, publicFits⟩, rfl, resolved, known, short _, rfl⟩⟩
  have otherKnows := knows_of_addRecipient senderId senderKey key.samePublic_publicHalf added
  have otherGrouped := (OfGroup.derive rfl aloneDerived).operation
    (.addRecipient [0x0a] key.publicHalf)
  rw [Operation.next_addRecipient added] at otherGrouped
  obtain ⟨pair, otherPair, derives, -, -, mirrors⟩ := derivePair_mirrors fits peerFits holds agreed
    (.derive rfl derived) otherGrouped knows otherKnows
  refine ⟨_, _, _, derived, aloneDerived, added, pair 8, otherPair 9, ?_, ?_, mirrors 8 9 [] []⟩
  · refine (derives [.reserve, .record [0x0b] 5] ?_ 8).1
    intro operation member
    simp only [List.mem_cons, List.not_mem_nil, or_false] at member
    rcases member with rfl | rfl <;> rfl
  · exact (derives [] (fun _ member => nomatch member) 9).2

end SecurityContext

end Oscore
