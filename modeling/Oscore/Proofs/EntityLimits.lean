/-
This file says in which limits entities stay. Every entity that derivation gives
starts at zero, within limits that were checked, also in a pair, whose limits are
those that its group was derived with. Nothing that is done to an entity through
its handle takes it out of its limits or its sequence number back. So the next
number always fits a word, the partial IV of the number fits a message, and
taking a nonce fails only when the numbers are used up.
-/

import Oscore.Proofs.LawfulActions
import Oscore.Proofs.NonceSpaces
import Oscore.Proofs.Reservations

namespace Oscore

/-! ### Entities that can make nonces -/

namespace Entity

variable {entity later : Entity}

/-- The entity that some adjustments leave, one after another. -/
def after (entity : Entity) (adjustments : List Adjustment) : Entity :=
  adjustments.foldl Adjustment.result entity

theorem evolves_after (entity : Entity) (adjustments : List Adjustment) :
    entity.Evolves (entity.after adjustments) := by
  induction adjustments generalizing entity with
  | nil => exact .refl entity
  | cons adjustment rest inductionHypothesis =>
    exact (entity.result_evolves adjustment).1.trans (inductionHypothesis _)

/-- An entity that stays in its limits and has an IV that any partial IV fits. -/
structure Usable (entity : Entity) : Prop where
  bounded : entity.Bounded
  room : partialIvCapacity ≤ entity.baseIv.length

theorem Usable.of_evolves (evolves : entity.Evolves later) (usable : entity.Usable) :
    later.Usable where
  bounded := evolves.bounded usable.bounded
  room := by
    rw [evolves.baseIv_eq]
    exact usable.room

theorem usable_fresh {keying : ResolvedKeying} (maximum : keying.limits.maximum ≤ sequenceCeiling)
    (interval : 0 < keying.limits.interval) (id : Bytes) (window : Option ReplayWindow)
    (key : Option SigningKey) :
    Usable { keying.fresh id window with signingKey := key } where
  bounded := ⟨Nat.zero_le _, maximum, interval⟩
  room := by
    have long := keying.aead.le_nonceLength
    show partialIvCapacity ≤ (foldIdentifier keying.commonIv id).length
    rw [foldIdentifier, Bytes.length_xorAt, Bytes.length_xorAt, ResolvedKeying.length_commonIv,
      partialIvCapacity]
    omega

/-- The partial IV of a usable entity is one that messages may carry. -/
theorem Usable.length_partialIv (usable : entity.Usable) :
    0 < entity.partialIv.length ∧ entity.partialIv.length ≤ partialIvCapacity :=
  ⟨PartialIv.length_encode_pos _, PartialIv.length_encode_le usable.bounded.sequence_le_ceiling⟩

theorem Usable.exists_nonce (usable : entity.Usable) :
    ∃ nonce, entity.nonce entity.partialIv = .ok nonce := by
  obtain ⟨positive, short⟩ := usable.length_partialIv
  have room := usable.room
  exact ⟨_, if_neg (by omega)⟩

end Entity

/-- A sender that is usable hands out a nonce, or has no number left and says so. -/
theorem SecurityContext.reserve_eq_error {context : SecurityContext}
    (usable : context.sender.Usable) {refusal : Refusal} :
    context.reserve.answer = .error refusal ↔
      context.sender.maximum ≤ context.sender.sequence ∧
        refusal = .sequenceExhausted context.sender.maximum := by
  obtain ⟨nonce, made⟩ := usable.exists_nonce
  rw [reserve, made, Entity.advance, Entity.exhausted]
  by_cases used : context.sender.maximum ≤ context.sender.sequence
  · simp only [used, decide_true, if_true, Except.error.injEq, true_and]
    exact eq_comm
  · simp only [used, decide_false, Bool.false_eq_true, if_false, reduceCtorEq, false_and]

/-! ### Entities that derivation gives -/

namespace SecurityContext

variable {context : SecurityContext}

theorem usable_of_derive {keying : Keying} {sender recipient : Bytes} {number : Nat}
    (derived : derive keying sender recipient number = .ok context) :
    ∀ entity ∈ context.entities, entity.Usable := by
  obtain ⟨resolved, known, -, -, rfl⟩ := derive_eq_ok.mp derived
  obtain ⟨maximum, interval, -⟩ := Keying.limits_of_resolve known
  intro entity member
  rcases List.mem_cons.mp member with rfl | recipient
  · exact Entity.usable_fresh maximum interval _ _ _
  · rw [List.mem_singleton.mp recipient]
    exact Entity.usable_fresh maximum interval _ _ _

theorem usable_of_deriveGroup {parameters : GroupParameters} {number : Nat}
    (derived : deriveGroup parameters number = .ok context) :
    ∀ entity ∈ context.entities, entity.Usable := by
  obtain ⟨algorithm, keying, members, gives, rfl⟩ := deriveGroup_eq_ok_context.mp derived
  obtain ⟨maximum, interval, -⟩ := Keying.limits_of_resolve gives.resolves
  intro entity member
  rcases List.mem_cons.mp member with rfl | recipient
  · exact Entity.usable_fresh maximum interval _ _ _
  · obtain ⟨listed, -, rfl⟩ := List.mem_map.mp recipient
    exact Entity.usable_fresh maximum interval _ _ _

/-- A pair takes over the limits of its group, which were checked when the group was derived. -/
theorem Sound.usable_of_derivePair {keying : ResolvedKeying} (sound : context.Sound keying)
    {pair : SecurityContext} {id : Bytes} {number : Nat}
    (derived : context.derivePair id number = .ok pair) :
    ∀ entity ∈ pair.entities, entity.Usable := by
  obtain ⟨checked, -⟩ := Keying.resolve_eq_ok.mp sound.resolved
  obtain ⟨maximum, interval, window⟩ := Limits.check_eq_ok.mp checked
  obtain ⟨member, -, _, _, -, -, shared, -, -, -, rfl⟩ := (derivePair_eq_ok window).mp derived
  have begins (secret id : Bytes) (window : Option ReplayWindow) :
      ((context.pairResolved shared secret).fresh id window).Usable :=
    @Entity.usable_fresh (context.pairResolved shared secret) maximum interval id window none
  intro entity member
  rcases List.mem_cons.mp member with rfl | recipient
  · exact begins _ _ _
  · rw [List.mem_singleton.mp recipient]
    exact begins _ _ _

theorem usable_of_duplicate (all : ∀ entity ∈ context.entities, entity.Usable) :
    ∀ entity ∈ context.duplicate.entities, entity.Usable := by
  have copied (entity : Entity) (member : entity ∈ context.entities) : entity.duplicate.Usable :=
    (all entity member).of_evolves (Entity.evolves_of_window fun _ positive => positive)
  intro entity member
  rcases List.mem_cons.mp member with rfl | recipient
  · exact copied _ (List.mem_append_right _ List.mem_cons_self)
  · obtain ⟨other, there, rfl⟩ := List.mem_map.mp recipient
    exact copied _ (List.mem_append_right _ (List.mem_cons_of_mem _ there))

theorem Reachable.usable (reachable : context.Reachable) :
    ∀ entity ∈ context.entities, entity.Usable := by
  induction reachable with
  | derive derived => exact usable_of_derive derived
  | deriveGroup derived => exact usable_of_deriveGroup derived
  | derivePair reachable derived _ =>
    obtain ⟨_, sound⟩ := reachable.sound
    exact sound.usable_of_derivePair derived
  | duplicate _ inductionHypothesis => exact usable_of_duplicate inductionHypothesis
  | operation reachable operation inductionHypothesis =>
    obtain ⟨_, sound⟩ := reachable.sound
    obtain ⟨maximum, interval, -⟩ := Keying.limits_of_resolve sound.resolved
    exact (operation.changes_next _).forall_entities sound.resolved Entity.Usable.of_evolves
      (fun _ => Entity.usable_fresh maximum interval _) inductionHypothesis

end SecurityContext

namespace Entity

variable {entity : Entity}

/-- The entities that derivation gives: one by itself, or the senders and recipients of a
context. -/
inductive Derived : Entity → Prop
  /-- From keying, for an identifier. -/
  | alone {keying : Keying} {id : Bytes} {role : Role} {entity : Entity}
      (derived : keying.entity id role = .ok entity) : Derived entity
  /-- With a context, or into it. -/
  | within {context : SecurityContext} {entity : Entity} (reachable : context.Reachable)
      (member : entity ∈ context.entities) : Derived entity

theorem Derived.usable (derived : entity.Derived) : entity.Usable := by
  cases derived with
  | alone derived =>
    obtain ⟨resolved, known, made⟩ := bind_eq_ok.mp derived
    obtain ⟨-, window, -, rfl⟩ := ResolvedKeying.entity_eq_ok.mp made
    obtain ⟨maximum, interval, -⟩ := Keying.limits_of_resolve known
    exact usable_fresh maximum interval _ _ _
  | within reachable member => exact reachable.usable entity member

/-- Whatever is done to a derived entity through its handle, its sequence number stays below its
maximum and that below what a partial IV carries, its interval is not zero, and the number never
goes back. So the next number is a word, the partial IV of the number has one to five bytes and
makes a nonce, and a context that sends as this entity refuses a nonce only when no number is left,
whatever its handlers do. -/
theorem Derived.stays_in_limits (derived : entity.Derived) (adjustments : List Adjustment) :
    let later := entity.after adjustments
    (later.sequence ≤ later.maximum ∧ later.maximum ≤ 2 ^ 40 - 1 ∧ 1 ≤ later.interval) ∧
      (∀ more, later.sequence ≤ (entity.after (adjustments ++ more)).sequence) ∧
      later.sequence + 1 ≤ wordCeiling ∧
      (1 ≤ later.partialIv.length ∧ later.partialIv.length ≤ 5) ∧
      (∃ nonce, later.nonce later.partialIv = .ok nonce) ∧
      ∀ {Handler Application : Type} (behaviour : Behaviour Handler Application)
        (ref : ContextRef) (endpoint : Endpoint Handler Application),
        (endpoint.context ref).sender = later → ∀ refusal,
          (Endpoint.reserve behaviour ref endpoint).1 = .error refusal ↔
            later.maximum ≤ later.sequence ∧ refusal = .sequenceExhausted later.maximum := by
  intro later
  have usable : later.Usable := derived.usable.of_evolves (entity.evolves_after adjustments)
  have bounded := usable.bounded
  refine ⟨⟨bounded.sequence_le, bounded.maximum_le, bounded.interval_pos⟩, ?_, ?_,
    usable.length_partialIv, usable.exists_nonce, ?_⟩
  · intro more
    rw [after, List.foldl_append]
    exact (later.evolves_after more).sequence_le
  · exact Nat.le_trans (Nat.succ_le_succ bounded.sequence_le_ceiling) (by decide)
  · intro Handler Application behaviour ref endpoint sends refusal
    rw [← sends] at usable ⊢
    exact SecurityContext.reserve_eq_error usable

/-- A sender whose maximum was taken down to its number and then up as far as five bytes reach goes
to that number and stays there: what would take it further is refused, and so is every nonce. -/
theorem Derived.stays_in_limits_at_ceiling :
    ∃ entity, Keying.entity { secret := [1] } [] .sender = .ok entity ∧
      let last := entity.after [.restore 7, .setMaximum 7, .advance, .setMaximum (2 ^ 64 - 1),
        .setMaximum (2 ^ 40 - 1), .setInterval 0, .restore (2 ^ 40 - 1), .advance, .renew]
      last.sequence = 2 ^ 40 - 1 ∧ last.maximum ≤ 2 ^ 40 - 1 ∧ 1 ≤ last.interval ∧
        last.partialIv.length ≤ 5 ∧
        ∀ context : SecurityContext, context.sender = last →
          let behaviour : Behaviour Unit Unit := fun _ event => pure event
          let endpoint : Endpoint Unit Unit := {
            contexts := [{ context, channel := ⟨0⟩ }]
            application := () }
          (Endpoint.reserve behaviour ⟨0⟩ endpoint).1 =
            .error (.sequenceExhausted last.maximum) := by
  obtain ⟨entity, derived, start, top⟩ : ∃ entity, Keying.entity { secret := [1] } [] .sender =
      .ok entity ∧ entity.sequence = 0 ∧ entity.maximum = 0xFFFFF :=
    ⟨_, @Keying.entity_sender _ ⟨[1], [], none, .aesCcm8, .sha256, {}⟩ rfl _ (by decide), rfl, rfl⟩
  refine ⟨entity, derived, ?_⟩
  intro last
  obtain ⟨⟨reached, maximum, interval⟩, -, -, ⟨-, short⟩, -, refuses⟩ :=
    (Derived.alone derived).stays_in_limits [.restore 7, .setMaximum 7, .advance,
      .setMaximum (2 ^ 64 - 1), .setMaximum (2 ^ 40 - 1), .setInterval 0, .restore (2 ^ 40 - 1),
      .advance, .renew]
  have sequence : last.sequence = 2 ^ 40 - 1 := by
    simp [last, after, Adjustment.result, Adjustment.apply, setMaximum, restore, start, top,
      sequenceCeiling, advance, exhausted, setInterval, duplicate, Except.map, Except.toOption]
  refine ⟨sequence, maximum, interval, short, ?_⟩
  intro context sends behaviour endpoint
  refine (refuses behaviour ⟨0⟩ endpoint sends _).mpr ⟨?_, rfl⟩
  rw [sequence]
  exact maximum

end Entity

end Oscore
