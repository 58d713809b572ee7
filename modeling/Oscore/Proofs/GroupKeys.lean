/-
This file says what the members of a group hold: the sender and every recipient
have a signing key that fits the group's algorithm, every recipient has a window
and the sender has none, and a recipient is found under its own identifier. Only
the use of a handle can put a signing key there that does not fit; everything
else checks the key before it changes anything.

That leaves little that can go wrong when a pair is derived. The keys lie on one
curve, the secret has its full length, and identifiers, algorithm and limits were
accepted for the group already. So a pair is refused to one who names no member,
or whose own signing key has no private half.
-/

import Oscore.Proofs.Pairs
import Oscore.Proofs.SenderIdentity

namespace Oscore

/-! ### What an entity retains -/

/-- What is left of an entity by everything but the setting of a signing key: its identifier, its
signing key, and whether it has a window. -/
structure Entity.Retains (before after : Entity) : Prop where
  id_eq : after.id = before.id
  signingKey_eq : after.signingKey = before.signingKey
  window_eq : after.window.isSome = before.window.isSome

/-- Whether an operation sets a signing key through a handle. -/
def Operation.setsKey : Operation → Bool
  | adjust _ (.setSigningKey _) => true
  | _ => false

theorem Entity.Retains.refl (entity : Entity) : entity.Retains entity := ⟨rfl, rfl, rfl⟩

theorem Entity.advance_retains {entity next : Entity} {persist : Bool}
    (advanced : entity.advance = .ok (persist, next)) : entity.Retains next := by
  obtain ⟨-, -, rfl⟩ := advance_eq_ok.mp advanced
  exact ⟨rfl, rfl, rfl⟩

theorem Entity.accept_retains {entity next : Entity} {sequence : Nat} {moved : Bool}
    (accepted : entity.accept sequence = .ok (moved, next)) : entity.Retains next := by
  obtain ⟨-, ⟨-, -, rfl⟩ | ⟨window, found, -, rfl⟩⟩ := accept_eq_ok.mp accepted
  · exact ⟨rfl, rfl, rfl⟩
  · exact ⟨rfl, rfl, by rw [found]; rfl⟩

theorem Entity.duplicate_retains (entity : Entity) : entity.Retains entity.duplicate :=
  ⟨rfl, rfl, Option.isSome_map⟩

/-- No adjustment makes a window or takes one away. -/
theorem Adjustment.isSome_window_result (adjustment : Adjustment) (entity : Entity) :
    (adjustment.result entity).window.isSome = entity.window.isSome := by
  rw [result]
  cases applied : adjustment.apply entity with
  | error refusal => rfl
  | ok next =>
    show next.window.isSome = entity.window.isSome
    cases adjustment with
    | advance =>
      obtain ⟨⟨persist, advanced⟩, taken, rfl⟩ := map_eq_ok.mp applied
      exact (Entity.advance_retains taken).window_eq
    | restore value =>
      cases (refuse_eq_ok.mp applied).2
      rfl
    | setMaximum maximum =>
      cases (refuse_eq_ok.mp applied).2
      rfl
    | setInterval interval =>
      cases (refuse_eq_ok.mp applied).2
      rfl
    | setSigningKey key =>
      cases applied
      rfl
    | mark sequence =>
      cases applied
      exact Option.isSome_map
    | reset base =>
      cases applied
      exact Option.isSome_map
    | replaceWindow window =>
      cases (refuse_eq_ok.mp applied).2
      exact Option.isSome_map
    | renew =>
      cases applied
      exact Option.isSome_map

theorem Adjustment.result_retains {adjustment : Adjustment} {place : Place}
    (keeps : (Operation.adjust place adjustment).setsKey = false) (entity : Entity) :
    entity.Retains (adjustment.result entity) where
  id_eq := (entity.result_evolves adjustment).1.id_eq
  signingKey_eq := by
    cases adjustment with
    | setSigningKey key => cases keeps
    | _ => exact @signingKey_result _ place rfl entity
  window_eq := adjustment.isSome_window_result entity

namespace SecurityContext

variable {context before later : SecurityContext} {algorithm : SignatureAlgorithm}
  {parameters : GroupParameters}

/-! ### Identifiers -/

/-- No two recipients of a context have one identifier. -/
theorem Reachable.distinct (reachable : context.Reachable) :
    (context.recipients.map Entity.id).Nodup := by
  induction reachable with
  | derive derived =>
    obtain ⟨_, -, -, -, rfl⟩ := derive_eq_ok.mp derived
    exact List.nodup_singleton _
  | deriveGroup derived =>
    obtain ⟨algorithm, keying, members, gives, rfl⟩ := deriveGroup_eq_ok_context.mp derived
    rw [GroupParameters.ids_context]
    exact gives.distinct
  | derivePair reachable derived =>
    obtain ⟨_, -, _, _, -, -, _, -, -, -, rfl⟩ :=
      (derivePair_eq_ok reachable.window_pos).mp derived
    exact List.nodup_singleton _
  | duplicate _ inductionHypothesis =>
    rw [SecurityContext.duplicate, List.map_map]
    exact inductionHypothesis
  | operation _ operation inductionHypothesis =>
    rcases operation.next_cases _ with touches | ⟨id, key, -, added⟩ | ⟨id, key, -, replaced⟩
    · rw [touches.identifiers_eq.2.1]
      exact inductionHypothesis
    · obtain ⟨-, free, _, -, -, equal⟩ := addRecipient_eq_ok.mp added
      rw [equal, List.map_append, List.nodup_append]
      refine ⟨inductionHypothesis, List.nodup_singleton _, ?_⟩
      intro first old second new same
      have taken : first = id := same.trans (List.mem_singleton.mp new)
      exact recipient?_eq_none.mp free (taken ▸ old)
    · obtain ⟨-, -, -, _, -, -, equal⟩ := replaceSender_eq_ok.mp replaced
      rw [equal]
      exact inductionHypothesis

/-! ### What an operation retains -/

/-- An entity was changed that retains its key and its identifier, or nothing was changed. -/
inductive Spares (before : SecurityContext) : SecurityContext → Prop
  | nothing : Spares before before
  | entity {place : Place} {entity next : Entity} (found : before.entity? place = some entity)
      (retains : entity.Retains next) : Spares before (before.setEntity place next)

theorem reserve_spares (context : SecurityContext) : context.Spares context.reserve.context := by
  rw [reserve]
  split
  · exact .nothing
  · split
    · exact .nothing
    · rename_i advanced
      have spared := Spares.entity context.entity?_senderPlace (Entity.advance_retains advanced)
      rwa [setEntity_senderPlace] at spared

theorem acceptFrom_spares {id : Bytes} {entity : Entity}
    (found : context.recipient? id = some entity) (sequence : Nat) :
    context.Spares (context.acceptFrom entity sequence).context := by
  rw [acceptFrom]
  split
  · exact .nothing
  · rename_i accepted
    have place : context.entity? (.recipient id) = some entity := found
    exact .entity place (Entity.accept_retains accepted)

/-- What does not set a signing key spares all keys, or adds a member, or replaces the sender. -/
theorem next_spares (context : SecurityContext) {operation : Operation}
    (keeps : operation.setsKey = false) :
    context.Spares (operation.next context) ∨
      (∃ id key, context.addRecipient id key = .ok (operation.next context)) ∨
      ∃ id key, context.replaceSender id key = .ok (operation.next context) := by
  cases operation with
  | reserve => exact Or.inl context.reserve_spares
  | protect associated plaintext => exact Or.inl context.reserve_spares
  | unprotect id partialIv associated ciphertext =>
    rw [Operation.next]
    rcases context.unprotect_cases id partialIv associated ciphertext with
      ⟨_, refused⟩ | ⟨entity, sequence, _, found, accepts⟩
    · rw [refused]
      exact Or.inl .nothing
    · rw [accepts]
      exact Or.inl (acceptFrom_spares found sequence)
  | record id sequence =>
    rw [Operation.next]
    rcases context.record_cases id sequence with ⟨_, refused⟩ | ⟨entity, found, accepts⟩
    · rw [refused]
      exact Or.inl .nothing
    · rw [accepts]
      exact Or.inl (acceptFrom_spares found sequence)
  | isReplay id sequence => exact Or.inl .nothing
  | addRecipient id key =>
    rw [Operation.next]
    cases added : context.addRecipient id key with
    | error refusal => exact Or.inl .nothing
    | ok larger => exact Or.inr (Or.inl ⟨id, key, added⟩)
  | replaceSender id key =>
    rw [Operation.next]
    cases replaced : context.replaceSender id key with
    | error refusal => exact Or.inl .nothing
    | ok away => exact Or.inr (Or.inr ⟨id, key, replaced⟩)
  | adjust place adjustment =>
    rw [Operation.next]
    split
    · rename_i entity found
      exact Or.inl (.entity found (adjustment.result_retains keeps entity))
    · exact Or.inl .nothing

/-! ### Keyed groups -/

end SecurityContext

/-- An entity whose signing key fits an algorithm. -/
def Entity.Signs (entity : Entity) (algorithm : SignatureAlgorithm) : Prop :=
  ∃ key, entity.signingKey = some key ∧ key.fits algorithm

theorem Entity.Signs.retains {before after : Entity} {algorithm : SignatureAlgorithm}
    (signs : before.Signs algorithm) (retains : before.Retains after) : after.Signs algorithm := by
  obtain ⟨key, held, fits⟩ := signs
  exact ⟨key, retains.signingKey_eq.trans held, fits⟩

namespace SecurityContext

variable {context before later : SecurityContext} {algorithm : SignatureAlgorithm}
  {parameters : GroupParameters}

/-- The context of a group in which everybody has a key for its algorithm, the recipients have
windows and the sender has none. -/
structure Keyed (context : SecurityContext) (algorithm : SignatureAlgorithm) : Prop where
  algorithm_eq : context.signatureAlgorithm = some algorithm
  sender_signs : context.sender.Signs algorithm
  sender_window : context.sender.window.isSome = false
  recipients_sign : ∀ entity ∈ context.recipients, entity.Signs algorithm
  recipients_window : ∀ entity ∈ context.recipients, entity.window.isSome

theorem Keyed.of_retains (keyed : before.Keyed algorithm)
    (sameAlgorithm : later.signatureAlgorithm = before.signatureAlgorithm)
    (sender : before.sender.Retains later.sender)
    (recipients : ∀ entity ∈ later.recipients, ∃ old ∈ before.recipients, old.Retains entity) :
    later.Keyed algorithm where
  algorithm_eq := sameAlgorithm.trans keyed.algorithm_eq
  sender_signs := keyed.sender_signs.retains sender
  sender_window := sender.window_eq.trans keyed.sender_window
  recipients_sign := by
    intro entity member
    obtain ⟨old, there, retains⟩ := recipients entity member
    exact (keyed.recipients_sign old there).retains retains
  recipients_window := by
    intro entity member
    obtain ⟨old, there, retains⟩ := recipients entity member
    exact retains.window_eq.trans (keyed.recipients_window old there)

theorem Keyed.spares (keyed : before.Keyed algorithm) (spares : before.Spares later) :
    later.Keyed algorithm := by
  cases spares with
  | nothing => exact keyed
  | @entity place entity next found retains =>
    have unchanged : ∀ entity ∈ before.recipients, ∃ old ∈ before.recipients, old.Retains entity :=
      fun entity member => ⟨entity, member, .refl entity⟩
    cases place with
    | sender generation =>
      rw [setEntity]
      split
      · rename_i current
        rw [current] at found
        cases before.entity?_senderPlace.symm.trans found
        exact keyed.of_retains rfl retains unchanged
      · exact keyed.of_retains rfl (.refl _) unchanged
    | recipient id =>
      refine keyed.of_retains rfl (.refl _) ?_
      intro other member
      obtain ⟨old, there, rfl⟩ := List.mem_map.mp member
      split
      · exact ⟨entity, mem_of_recipient? found, retains⟩
      · exact ⟨old, there, .refl old⟩

theorem Keyed.addRecipient (keyed : before.Keyed algorithm) {id : Bytes} {key : SigningKey}
    (added : before.addRecipient id key = .ok later) : later.Keyed algorithm := by
  obtain ⟨⟨_, known, fits⟩, free, resolved, -, -, rfl⟩ := addRecipient_eq_ok.mp added
  cases keyed.algorithm_eq.symm.trans known
  refine ⟨keyed.algorithm_eq, keyed.sender_signs, keyed.sender_window, ?_, ?_⟩
  · intro entity member
    rcases List.mem_append.mp member with old | new
    · exact keyed.recipients_sign entity old
    · rw [List.mem_singleton.mp new]
      exact ⟨key, rfl, fits⟩
  · intro entity member
    rcases List.mem_append.mp member with old | new
    · exact keyed.recipients_window entity old
    · rw [List.mem_singleton.mp new]
      rfl

theorem Keyed.replaceSender (keyed : before.Keyed algorithm) {id : Bytes} {key : SigningKey}
    (replaced : before.replaceSender id key = .ok later) : later.Keyed algorithm := by
  obtain ⟨⟨_, known, fits⟩, -, -, resolved, -, -, rfl⟩ := replaceSender_eq_ok.mp replaced
  cases keyed.algorithm_eq.symm.trans known
  exact ⟨keyed.algorithm_eq, ⟨key, rfl, fits⟩, rfl, keyed.recipients_sign,
    keyed.recipients_window⟩

/-- Only the setting of a signing key can bring a key in that does not fit. -/
theorem Keyed.next (keyed : context.Keyed algorithm) {operation : Operation}
    (keeps : operation.setsKey = false) : (operation.next context).Keyed algorithm := by
  rcases context.next_spares keeps with spares | ⟨_, _, added⟩ | ⟨_, _, replaced⟩
  · exact keyed.spares spares
  · exact keyed.addRecipient added
  · exact keyed.replaceSender replaced

theorem Keyed.duplicate (keyed : context.Keyed algorithm) : context.duplicate.Keyed algorithm := by
  refine keyed.of_retains rfl context.sender.duplicate_retains ?_
  intro entity member
  obtain ⟨old, there, rfl⟩ := List.mem_map.mp member
  exact ⟨old, there, old.duplicate_retains⟩

/-- A group is derived only if all keys fit its algorithm. -/
theorem keyed_of_deriveGroup {number : Nat}
    (derived : deriveGroup parameters number = .ok context) :
    ∃ algorithm, SignatureAlgorithm.ofIdentifier parameters.algorithm = .ok algorithm ∧
      context.Keyed algorithm := by
  obtain ⟨algorithm, keying, members, gives, rfl⟩ := deriveGroup_eq_ok_context.mp derived
  refine ⟨algorithm, gives.algorithm_known, rfl, ⟨_, rfl, gives.sender_admitted.key_fits⟩, rfl, ?_,
    ?_⟩
  · intro entity recipient
    obtain ⟨member, there, rfl⟩ := List.mem_map.mp recipient
    exact ⟨_, rfl, (gives.members_admitted member there).key_fits⟩
  · intro entity recipient
    obtain ⟨member, -, rfl⟩ := List.mem_map.mp recipient
    rfl

/-! ### The contexts of a group -/

/-- The contexts of a group that some parameters give: those that are derived, copied, and
operated on without setting signing keys through handles. -/
inductive InGroup (parameters : GroupParameters) : SecurityContext → Prop
  | derive {number : Nat} {context : SecurityContext}
      (derived : deriveGroup parameters number = .ok context) : InGroup parameters context
  | duplicate {context : SecurityContext} (grouped : InGroup parameters context) :
      InGroup parameters context.duplicate
  | operation {context : SecurityContext} (grouped : InGroup parameters context)
      {operation : Operation} (keeps : operation.setsKey = false) :
      InGroup parameters (operation.next context)

theorem InGroup.ofGroup (grouped : InGroup parameters context) :
    OfGroup parameters.keying context := by
  induction grouped with
  | derive derived => exact .derive rfl derived
  | duplicate _ inductionHypothesis => exact inductionHypothesis.duplicate
  | operation _ _ inductionHypothesis => exact inductionHypothesis.operation _

theorem InGroup.reachable (grouped : InGroup parameters context) : context.Reachable := by
  induction grouped with
  | derive derived => exact .deriveGroup derived
  | duplicate _ inductionHypothesis => exact inductionHypothesis.duplicate
  | operation _ _ inductionHypothesis => exact inductionHypothesis.operation _

theorem InGroup.keyed (grouped : InGroup parameters context) :
    ∃ algorithm, SignatureAlgorithm.ofIdentifier parameters.algorithm = .ok algorithm ∧
      context.Keyed algorithm := by
  induction grouped with
  | derive derived => exact keyed_of_deriveGroup derived
  | duplicate _ inductionHypothesis =>
    obtain ⟨algorithm, known, keyed⟩ := inductionHypothesis
    exact ⟨algorithm, known, keyed.duplicate⟩
  | operation _ keeps inductionHypothesis =>
    obtain ⟨algorithm, known, keyed⟩ := inductionHypothesis
    exact ⟨algorithm, known, keyed.next keeps⟩

/-! ### Deriving pairs -/

end SecurityContext

theorem SigningKey.agree_of_not_isPrivate {key : SigningKey} (lacks : key.isPrivate = false)
    (peer : SigningKey) (size : Nat) :
    key.agree peer size = .error (.agreement .publicOnly) := by
  obtain ⟨_, ⟨_ | _, _⟩ | ⟨_ | _, _⟩⟩ := key
  · rfl
  · cases lacks
  · rfl
  · cases lacks

namespace SecurityContext

variable {context before later : SecurityContext} {algorithm : SignatureAlgorithm}
  {parameters : GroupParameters} {keying : ResolvedKeying} {id : Bytes}

theorem derivePair_of_absent (absent : context.recipient? id = none) (number : Nat) :
    context.derivePair id number = .error (.unknownRecipient id) := by
  rw [derivePair, preparePair, recipient, absent]
  rfl

theorem Keyed.derivePair_of_publicOnly (keyed : context.Keyed algorithm) {member : Entity}
    (found : context.recipient? id = some member) {key : SigningKey}
    (held : context.sender.signingKey = some key) (lacks : key.isPrivate = false) (number : Nat) :
    context.derivePair id number = .error (.failure (.agreement .publicOnly)) := by
  obtain ⟨memberKey, memberHeld, -⟩ := keyed.recipients_sign member (mem_of_recipient? found)
  have refused := SigningKey.agree_of_not_isPrivate lacks memberKey pairwiseSecretLength
  simp only [derivePair, preparePair, recipient_eq_ok.mpr found, bind, Except.bind, held,
    memberHeld, refused]
  rfl

/-- A private key agrees with the key of every member, and what else a pair needs was checked
when the group was derived and the member was added. -/
theorem Keyed.derivePair_isOk (keyed : context.Keyed algorithm) (uniform : context.Uniform keying)
    {member : Entity} (found : context.recipient? id = some member) {key : SigningKey}
    (held : context.sender.signingKey = some key) (holds : key.isPrivate) (number : Nat) :
    ∃ pair, context.derivePair id number = .ok pair := by
  obtain ⟨_, again, fits⟩ := keyed.sender_signs
  cases held.symm.trans again
  obtain ⟨memberKey, memberHeld, memberFits⟩ :=
    keyed.recipients_sign member (mem_of_recipient? found)
  obtain ⟨shared, agreed, -⟩ := SigningKey.agree_isOk fits memberFits holds
  have memberDerived := uniform.all_derived member
    (List.mem_append_right _ (List.mem_cons_of_mem _ (mem_of_recipient? found)))
  have senderShort := uniform.derived.id_fits
  have memberShort := memberDerived.id_fits
  rw [← uniform.algorithm_eq] at senderShort memberShort
  exact ⟨_, (derivePair_eq_ok uniform.window_pos).mpr ⟨member, found, key, memberKey, held,
    memberHeld, shared, agreed, senderShort, memberShort, rfl⟩⟩

/-- Deriving a pair has three outcomes. -/
theorem InGroup.derivePair_cases (grouped : InGroup parameters context) (id : Bytes)
    (number : Nat) :
    (context.recipient? id = none ∧
      context.derivePair id number = .error (.unknownRecipient id)) ∨
    ∃ member key, context.recipient? id = some member ∧ context.sender.signingKey = some key ∧
      (key.isPrivate ∧ (∃ pair, context.derivePair id number = .ok pair) ∨
        key.isPrivate = false ∧
          context.derivePair id number = .error (.failure (.agreement .publicOnly))) := by
  obtain ⟨algorithm, -, keyed⟩ := grouped.keyed
  obtain ⟨keying, -, uniform⟩ := grouped.ofGroup.uniform
  obtain ⟨key, held, -⟩ := keyed.sender_signs
  cases found : context.recipient? id with
  | none => exact Or.inl ⟨rfl, derivePair_of_absent found number⟩
  | some member =>
    refine Or.inr ⟨member, key, rfl, held, ?_⟩
    cases holds : key.isPrivate with
    | true => exact Or.inl ⟨rfl, keyed.derivePair_isOk uniform found held holds number⟩
    | false => exact Or.inr ⟨rfl, keyed.derivePair_of_publicOnly found held holds number⟩

/-- In every context of a group in which no handle was used to set a signing key, everybody has a
key that fits the algorithm of the group, recipients are found under their identifiers, they have
windows, and the sender has none. A pair can then be derived exactly with the members, and by a
sender that holds the private half of its key; nothing else is ever the reason for a refusal. -/
theorem InGroup.members_sign (grouped : InGroup parameters context) :
    ∃ algorithm, SignatureAlgorithm.ofIdentifier parameters.algorithm = .ok algorithm ∧
      context.signatureAlgorithm = some algorithm ∧
      (∀ entity ∈ context.sender :: context.recipients,
        ∃ key, entity.signingKey = some key ∧ key.fits algorithm) ∧
      (∀ id entity, context.recipient? id = some entity ↔
        entity ∈ context.recipients ∧ entity.id = id) ∧
      (∀ entity ∈ context.recipients, entity.window.isSome) ∧ context.sender.window = none ∧
      ∀ id number,
        ((∃ pair, context.derivePair id number = .ok pair) ↔
          (∃ member ∈ context.recipients, member.id = id) ∧
            ∃ key, context.sender.signingKey = some key ∧ key.isPrivate) ∧
        ∀ refusal, context.derivePair id number = .error refusal →
          refusal = .unknownRecipient id ∧ context.recipient? id = none ∨
          refusal = .failure (.agreement .publicOnly) ∧
            ∃ key, context.sender.signingKey = some key ∧ key.isPrivate = false := by
  obtain ⟨algorithm, known, keyed⟩ := grouped.keyed
  have found (id : Bytes) (entity : Entity) : context.recipient? id = some entity ↔
      entity ∈ context.recipients ∧ entity.id = id := by
    constructor
    · exact fun found => ⟨mem_of_recipient? found, id_of_recipient? found⟩
    · rintro ⟨member, rfl⟩
      exact recipient?_of_mem grouped.reachable.distinct member
  refine ⟨algorithm, known, keyed.algorithm_eq, ?_, found, keyed.recipients_window,
    Option.isNone_iff_eq_none.mp (Option.isSome_eq_false_iff.mp keyed.sender_window), ?_⟩
  · exact List.forall_mem_cons.mpr ⟨keyed.sender_signs, keyed.recipients_sign⟩
  · intro id number
    rcases grouped.derivePair_cases id number with ⟨absent, refused⟩ |
      ⟨member, key, there, held, ⟨holds, pair, derived⟩ | ⟨lacks, refused⟩⟩
    · rw [refused]
      refine ⟨⟨fun derived => ?_, fun members => ?_⟩, fun refusal same => Or.inl ⟨?_, absent⟩⟩
      · obtain ⟨_, derived⟩ := derived
        cases derived
      · obtain ⟨⟨member, present⟩, -⟩ := members
        rw [(found id member).mpr present] at absent
        cases absent
      · exact (Except.error.inj same).symm
    · rw [derived]
      refine ⟨⟨fun _ => ?_, fun _ => ⟨pair, rfl⟩⟩, fun refusal same => nomatch same⟩
      exact ⟨⟨member, (found id member).mp there⟩, key, held, holds⟩
    · rw [refused]
      refine ⟨⟨fun derived => ?_, fun members => ?_⟩, fun refusal same =>
        Or.inr ⟨?_, key, held, lacks⟩⟩
      · obtain ⟨_, derived⟩ := derived
        cases derived
      · obtain ⟨-, other, again, holds⟩ := members
        cases held.symm.trans again
        rw [lacks] at holds
        cases holds
      · exact (Except.error.inj same).symm

/-- A group derives a pair with a member that was added, from a copy of its context too, until the
sender takes a key without its private half. -/
theorem InGroup.members_sign_replaced :
    ∃ key context larger replaced, SigningKey.ofSeed (List.replicate 32 0x11) = .ok key ∧
      deriveGroup { keying := { secret := [1] }, sender := [0x0a], algorithm := -8, key } 1 =
        .ok context ∧
      context.addRecipient [0x0b] key = .ok larger ∧
      larger.replaceSender [0x0c] key.publicHalf = .ok replaced ∧
      (∃ pair, larger.duplicate.derivePair [0x0b] 2 = .ok pair) ∧
      (¬∃ pair, larger.derivePair [0x0c] 3 = .ok pair) ∧
      ¬∃ pair, replaced.derivePair [0x0b] 3 = .ok pair := by
  let key : SigningKey := ⟨none, .ed25519 (some (List.replicate 32 0x11))
    (EdDsa.publicKey (List.replicate 32 0x11))⟩
  have made : SigningKey.ofSeed (List.replicate 32 0x11) = .ok key := if_pos (by decide)
  let resolved : ResolvedKeying := ⟨[1], [], none, .aesCcm8, .sha256, {}⟩
  have known : Keying.resolve { secret := [1] } = .ok resolved := rfl
  have short (byte : UInt8) : [byte].length ≤ resolved.aead.identifierCapacity :=
    (by decide : 1 ≤ AeadAlgorithm.aesCcm8.identifierCapacity)
  obtain ⟨context, derived, sound, sender, -, recipients, can⟩ :=
    deriveGroup_alone known (short 0x0a) (rfl : key.fits .edDsa) 1
  have held : context.sender.signingKey = some key := by rw [sender]
  obtain ⟨larger, added⟩ := (can [0x0b] (short 0x0b)).2
  obtain ⟨replaced, away, senderKey⟩ : ∃ replaced,
      larger.replaceSender [0x0c] key.publicHalf = .ok replaced ∧
      replaced.sender.signingKey = some key.publicHalf := by
    obtain ⟨⟨algorithm, signs, fits⟩, -, _, again, -, rfl⟩ := addRecipient_eq_ok.mp added
    cases sound.resolved.symm.trans again
    rw [← SigningKey.fits_publicHalf] at fits
    exact ⟨_, replaceSender_eq_ok.mpr ⟨⟨algorithm, signs, fits⟩, by rw [sender]; decide,
      by rw [recipient?, recipients]; rfl, resolved, again, short 0x0c, rfl⟩, rfl⟩
  have grouped := @InGroup.operation _ _ (.derive derived) (.addRecipient [0x0b] key) rfl
  rw [Operation.next_addRecipient added] at grouped
  have leaves := @InGroup.operation _ _ grouped (.replaceSender [0x0c] key.publicHalf) rfl
  rw [Operation.next_replaceSender away] at leaves
  refine ⟨key, context, larger, replaced, made, derived, added, away, ?_, ?_, ?_⟩
  · obtain ⟨_, -, -, -, -, -, -, pairs⟩ := grouped.duplicate.members_sign
    obtain ⟨-, -, _, -, -, rfl⟩ := addRecipient_eq_ok.mp added
    refine (pairs [0x0b] 2).1.mpr ⟨⟨_, List.mem_map.mpr ⟨_, List.mem_append_right _
      (List.mem_singleton.mpr rfl), rfl⟩, rfl⟩, key, held, rfl⟩
  · obtain ⟨_, -, -, -, -, -, -, pairs⟩ := grouped.members_sign
    intro pair
    obtain ⟨⟨member, present, named⟩, -⟩ := (pairs [0x0c] 3).1.mp pair
    obtain ⟨-, -, _, -, -, rfl⟩ := addRecipient_eq_ok.mp added
    rw [recipients] at present
    rw [List.mem_singleton.mp present] at named
    cases named
  · obtain ⟨_, -, -, -, -, -, -, pairs⟩ := leaves.members_sign
    intro pair
    obtain ⟨-, _, publicHeld, holds⟩ := (pairs [0x0b] 3).1.mp pair
    cases senderKey.symm.trans publicHeld
    cases holds

end SecurityContext

end Oscore
