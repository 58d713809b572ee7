/-
This file says when a context listens to its own sender. A recipient of the
sender's identifier has the sender's key and IV, so that messages which the
sender protected are accepted as a recipient's. Replacing the sender refuses an
identifier that a recipient has. Nothing else looks at both sides: a derivation
takes the two identifiers as they are, and a member may be added under the
sender's own. A context then listens to its sender exactly when one of these two
gave the identifier twice and the sender was not replaced since.
-/

import Oscore.Proofs.NonceSpaces
import Oscore.Proofs.Reservations

namespace Oscore.SecurityContext

variable {context before later : SecurityContext} {keying : ResolvedKeying}

/-! ### The identifiers of both sides -/

/-- Whether the identifier of the sender is also a recipient's. -/
def ListensToSelf (context : SecurityContext) : Prop :=
  context.sender.id ∈ context.recipients.map Entity.id

/-- A context listens to its sender exactly when a recipient has the sender's key and IV. -/
theorem Uniform.listensToSelf_iff (uniform : context.Uniform keying) :
    context.ListensToSelf ↔ ∃ entity ∈ context.recipients,
      entity.key = context.sender.key ∧ entity.baseIv = context.sender.baseIv := by
  have derived : ∀ entity ∈ context.recipients, entity.DerivedBy keying := by
    intro entity member
    exact uniform.all_derived entity
      (List.mem_append_right _ (List.mem_cons_of_mem _ member))
  constructor
  · intro listens
    obtain ⟨entity, member, sameId⟩ := List.mem_map.mp listens
    refine ⟨entity, member, ?_, ((derived entity member).baseIv_inj uniform.derived).mpr sameId⟩
    rw [(derived entity member).key_eq, uniform.derived.key_eq, sameId]
  · rintro ⟨entity, member, -, sameIv⟩
    exact List.mem_map.mpr
      ⟨entity, member, ((derived entity member).baseIv_inj uniform.derived).mp sameIv⟩

/-- A recipient is put in the place of one with its identifier. -/
theorem ids_setRecipient (context : SecurityContext) (next : Entity) :
    (context.setRecipient next).recipients.map Entity.id = context.recipients.map Entity.id := by
  rw [setRecipient, List.map_map]
  refine List.map_congr_left fun other _ => ?_
  show (if other.id = next.id then next else other).id = other.id
  split
  · rename_i same
    exact same.symm
  · rfl

/-- Touching an entity changes no identifier, and no sender for another. -/
theorem Touches.identifiers_eq {forgets : Place → Prop} (touches : before.Touches forgets later) :
    later.sender.id = before.sender.id ∧
      later.recipients.map Entity.id = before.recipients.map Entity.id ∧
      later.senderPlace = before.senderPlace := by
  cases touches with
  | nothing => exact ⟨rfl, rfl, rfl⟩
  | @entity place entity next found evolves _ =>
    cases place with
    | sender generation =>
      rw [setEntity]
      split
      · rename_i current
        rw [current] at found
        cases before.entity?_senderPlace.symm.trans found
        exact ⟨evolves.id_eq, rfl, rfl⟩
      · exact ⟨rfl, rfl, congrArg Place.sender (List.length_set ..)⟩
    | recipient id => exact ⟨rfl, before.ids_setRecipient next, rfl⟩

/-- A free identifier is no recipient's. -/
theorem recipient?_eq_none {id : Bytes} :
    context.recipient? id = none ↔ id ∉ context.recipients.map Entity.id := by
  rw [recipient?, List.find?_eq_none]
  simp only [decide_eq_true_eq, List.mem_map, not_exists, not_and]

theorem not_listensToSelf_of_replaceSender {id : Bytes} {key : SigningKey}
    (replaced : before.replaceSender id key = .ok later) : ¬later.ListensToSelf := by
  obtain ⟨-, -, free, _, -, -, rfl⟩ := replaceSender_eq_ok.mp replaced
  exact recipient?_eq_none.mp free

theorem listensToSelf_of_addRecipient {id : Bytes} {key : SigningKey}
    (added : before.addRecipient id key = .ok later) :
    (later.ListensToSelf ↔ before.ListensToSelf ∨ before.sender.id = id) ∧
      later.senderPlace = before.senderPlace := by
  obtain ⟨-, -, _, -, -, rfl⟩ := addRecipient_eq_ok.mp added
  refine ⟨?_, rfl⟩
  rw [ListensToSelf, List.map_append, List.mem_append, ← ListensToSelf]
  exact or_congr Iff.rfl List.mem_singleton

/-! ### One operation -/

/-- An operation that adds a member under the identifier of the sender. -/
def AddsSender (context : SecurityContext) (operation : Operation) : Prop :=
  ∃ key larger, operation = .addRecipient context.sender.id key ∧
    context.addRecipient context.sender.id key = .ok larger

theorem AddsSender.listensToSelf {operation : Operation} (adds : context.AddsSender operation) :
    (operation.next context).ListensToSelf ∧
      (operation.next context).senderPlace = context.senderPlace := by
  obtain ⟨key, larger, rfl, added⟩ := adds
  rw [Operation.next_addRecipient added]
  obtain ⟨listens, place⟩ := listensToSelf_of_addRecipient added
  exact ⟨listens.mpr (Or.inr rfl), place⟩

/-- A context listens to its sender after an operation if it did before and the sender is still
the same, or if the operation added the sender. -/
theorem listensToSelf_next_iff (context : SecurityContext) (operation : Operation) :
    (operation.next context).ListensToSelf ↔
      context.ListensToSelf ∧ (operation.next context).senderPlace = context.senderPlace ∨
        context.AddsSender operation := by
  constructor
  · intro listens
    rcases operation.next_cases context with touches | ⟨id, key, same, added⟩ |
      ⟨id, key, -, replaced⟩
    · obtain ⟨sender, recipients, place⟩ := touches.identifiers_eq
      rw [ListensToSelf, sender, recipients] at listens
      exact Or.inl ⟨listens, place⟩
    · obtain ⟨extended, place⟩ := listensToSelf_of_addRecipient added
      rcases extended.mp listens with already | rfl
      · exact Or.inl ⟨already, place⟩
      · exact Or.inr ⟨key, _, same, added⟩
    · exact absurd listens (not_listensToSelf_of_replaceSender replaced)
  · rintro (⟨listens, place⟩ | adds)
    · rcases operation.next_cases context with touches | ⟨id, key, -, added⟩ |
        ⟨id, key, -, replaced⟩
      · obtain ⟨sender, recipients, -⟩ := touches.identifiers_eq
        rw [ListensToSelf, sender, recipients]
        exact listens
      · exact (listensToSelf_of_addRecipient added).1.mpr (Or.inl listens)
      · obtain ⟨-, -, -, _, -, -, equal⟩ := replaceSender_eq_ok.mp replaced
        rw [equal, senderPlace, senderPlace, Place.sender.injEq, List.length_append] at place
        exact absurd place (Nat.succ_ne_self _)
    · exact adds.listensToSelf.1

/-! ### Runs -/

/-- The number of senders that were replaced never goes down. -/
theorem generation_le_next (context : SecurityContext) (operation : Operation) :
    context.formerSenders.length ≤ (operation.next context).formerSenders.length := by
  rcases (operation.changes_next context).turn_upto with earlier | ⟨same, -, -⟩
  · exact Nat.le_of_lt earlier
  · exact Nat.le_of_eq same

theorem generation_le_after (context : SecurityContext) (operations : List Operation) :
    context.formerSenders.length ≤ (context.after operations).formerSenders.length := by
  induction operations generalizing context with
  | nil => exact Nat.le_refl _
  | cons operation rest inductionHypothesis =>
    exact Nat.le_trans (context.generation_le_next operation) (inductionHypothesis _)

theorem after_append (context : SecurityContext) (front rest : List Operation) :
    context.after (front ++ rest) = (context.after front).after rest := List.foldl_append

/-- A sender that still stands at the end stood all the time. -/
theorem senderPlace_eq_of_after {front rest : List Operation}
    (stands : (context.after (front ++ rest)).senderPlace = context.senderPlace) :
    (context.after front).senderPlace = context.senderPlace ∧
      ((context.after front).after rest).senderPlace = (context.after front).senderPlace := by
  rw [after_append] at stands
  have before := context.generation_le_after front
  have afterwards := (context.after front).generation_le_after rest
  simp only [senderPlace, Place.sender.injEq] at stands ⊢
  omega

/-- A context listens to its sender after a run if it did before, or if some operation of the run
added the sender, and if in either case the sender was not replaced since. -/
theorem listensToSelf_after_iff (context : SecurityContext) (operations : List Operation) :
    (context.after operations).ListensToSelf ↔
      context.ListensToSelf ∧ (context.after operations).senderPlace = context.senderPlace ∨
        ∃ front operation rest, operations = front ++ operation :: rest ∧
          (context.after front).AddsSender operation ∧
          (context.after operations).senderPlace = (context.after front).senderPlace := by
  induction operations generalizing context with
  | nil =>
    constructor
    · intro listens
      exact Or.inl ⟨listens, rfl⟩
    · rintro (⟨listens, -⟩ | ⟨front, _, _, equal, -⟩)
      · exact listens
      · cases front <;> cases equal
  | cons operation rest inductionHypothesis =>
    have split : context.after (operation :: rest) = (operation.next context).after rest := rfl
    rw [split, inductionHypothesis (operation.next context), listensToSelf_next_iff]
    constructor
    -- what was before, what the first operation did, or what a later one did
    · rintro (⟨⟨listens, now⟩ | adds, stands⟩ | ⟨front, added, back, rfl, adds, stands⟩)
      · exact Or.inl ⟨listens, stands.trans now⟩
      · exact Or.inr ⟨[], operation, rest, rfl, adds, stands.trans adds.listensToSelf.2⟩
      · exact Or.inr ⟨operation :: front, added, back, rfl, adds, stands⟩
    · rintro (⟨listens, stands⟩ | ⟨front, added, back, equal, adds, stands⟩)
      · obtain ⟨now, later⟩ := @senderPlace_eq_of_after context [operation] rest stands
        exact Or.inl ⟨Or.inl ⟨listens, now⟩, later⟩
      · cases front with
        | nil =>
          cases equal
          obtain ⟨-, place⟩ := adds.listensToSelf
          exact Or.inl ⟨Or.inr adds, stands.trans place.symm⟩
        | cons first front =>
          cases equal
          exact Or.inr ⟨front, added, back, rfl, adds, stands⟩

/-- The context that a derivation gives, and whatever is then done with it, listens to its own
sender exactly when the derivation or an added member gave the sender's identifier to a recipient
and the sender was not replaced since. This is exactly when a recipient has the sender's key
and IV. -/
theorem listensToSelf_of_derived {sender : Bytes} {others : List Bytes}
    (derived : context.DerivedFor sender others) (operations : List Operation) :
    ((context.after operations).ListensToSelf ↔
      sender ∈ others ∧ (context.after operations).senderPlace = .sender 0 ∨
        ∃ front operation rest, operations = front ++ operation :: rest ∧
          (context.after front).AddsSender operation ∧
          (context.after operations).senderPlace = (context.after front).senderPlace) ∧
      ((context.after operations).ListensToSelf ↔
        ∃ entity ∈ (context.after operations).recipients,
          entity.key = (context.after operations).sender.key ∧
          entity.baseIv = (context.after operations).sender.baseIv) ∧
      ∀ id key later, (context.after operations).replaceSender id key = .ok later →
        ¬later.ListensToSelf := by
  obtain ⟨⟨keying, uniform⟩, senderId, recipientIds, noFormer⟩ := derived.starts
  have first : context.senderPlace = .sender 0 := by rw [senderPlace, noFormer]; rfl
  refine ⟨?_, (uniform.after operations).listensToSelf_iff, ?_⟩
  · rw [listensToSelf_after_iff, ← first, ListensToSelf, senderId, recipientIds]
  · intro id key later replaced
    exact not_listensToSelf_of_replaceSender replaced

/-- A member that adds itself listens to itself until it takes another identifier. -/
theorem listensToSelf_until_replaced :
    ∃ key context larger, SigningKey.ofSeed (List.replicate 32 0x11) = .ok key ∧
      deriveGroup { keying := { secret := [1] }, sender := [0x0a], key, algorithm := -8 } 1 =
        .ok context ∧
      context.addRecipient [0x0a] key = .ok larger ∧
      ¬(context.after []).ListensToSelf ∧
      (context.after [.addRecipient [0x0a] key]).ListensToSelf ∧
      ∃ later, (context.after [.addRecipient [0x0a] key]).replaceSender [0x0c] key = .ok later ∧
        ¬later.ListensToSelf := by
  obtain ⟨key, made, fits⟩ := @exists_ofSeed (List.replicate 32 0x11) rfl
  have known : Keying.resolve { secret := [1] } =
      .ok ⟨[1], [], none, .aesCcm8, .sha256, {}⟩ := rfl
  obtain ⟨context, derived, sound, sender, noFormer, alone, adds⟩ :=
    @deriveGroup_alone _ _ [0x0a] key known (by decide) fits 1
  obtain ⟨larger, added⟩ := (adds [0x0a] (by decide)).2
  obtain ⟨signed, -, -⟩ := addRecipient_eq_ok.mp added
  have root : context.DerivedFor [0x0a] [] := @DerivedFor.group _ [] _ _ rfl derived
  have sameId : context.sender.id = [0x0a] := by rw [sender]; rfl
  have started : context.senderPlace = .sender 0 := by rw [senderPlace, noFormer]; rfl
  have afterwards : context.after [.addRecipient [0x0a] key] = larger :=
    Operation.next_addRecipient added
  obtain ⟨exactly, -, -⟩ := listensToSelf_of_derived root []
  obtain ⟨exactlyAdded, -, excluded⟩ := listensToSelf_of_derived root [.addRecipient [0x0a] key]
  obtain ⟨later, replaced⟩ : ∃ later, larger.replaceSender [0x0c] key = .ok later := by
    obtain ⟨-, -, _, resolved, -, rfl⟩ := addRecipient_eq_ok.mp added
    refine ⟨_, replaceSender_eq_ok.mpr ⟨signed, ?_, ?_, _, resolved, ?_, rfl⟩⟩
    · rw [sameId]
      decide
    · rw [recipient?, alone]
      rfl
    · cases sound.resolved.symm.trans resolved
      decide
  refine ⟨key, context, larger, made, derived, added, ?_, ?_, later, ?_, ?_⟩
  · rw [exactly]
    rintro (⟨member, -⟩ | ⟨front, _, _, equal, -⟩)
    · cases member
    · cases front <;> cases equal
  · refine exactlyAdded.mpr (Or.inr ⟨[], _, [], rfl, ⟨key, larger, ?_, ?_⟩, ?_⟩)
    · rw [after, List.foldl_nil, sameId]
    · rw [after, List.foldl_nil, sameId]
      exact added
    · rw [afterwards]
      exact (listensToSelf_of_addRecipient added).2
  · rw [afterwards]
    exact replaced
  · exact excluded [0x0c] key later (by rw [afterwards]; exact replaced)

/-- A derivation for two parties takes one identifier for both, and a group takes its sender's for
a new member. Either way a recipient has the sender's identifier, key and IV. -/
theorem listensToSelf_accepted :
    (∃ context, derive { secret := [1] } [1] [1] 1 = .ok context ∧
      ∃ entity ∈ context.recipients, entity.id = context.sender.id ∧
        entity.key = context.sender.key ∧ entity.baseIv = context.sender.baseIv) ∧
      ∃ key context larger, SigningKey.ofSeed (List.replicate 32 0x11) = .ok key ∧
        deriveGroup { keying := { secret := [1] }, sender := [0x0a], key, algorithm := -8 } 1 =
          .ok context ∧
        context.addRecipient [0x0a] key = .ok larger ∧
        ∃ entity ∈ larger.recipients, entity.id = larger.sender.id ∧
          entity.key = larger.sender.key ∧ entity.baseIv = larger.sender.baseIv := by
  have known : Keying.resolve { secret := [1] } =
      .ok ⟨[1], [], none, .aesCcm8, .sha256, {}⟩ := rfl
  constructor
  · have derived := (@derive_eq_ok _ { secret := [1] } [1] [1] 1).mpr
      ⟨_, known, by decide, by decide, rfl⟩
    exact ⟨_, derived, _, List.mem_singleton_self _, rfl, rfl, rfl⟩
  · obtain ⟨key, made, fits⟩ := @exists_ofSeed (List.replicate 32 0x11) rfl
    obtain ⟨context, derived, sound, sender, -, -, adds⟩ :=
      @deriveGroup_alone _ _ [0x0a] key known (by decide) fits 1
    obtain ⟨larger, added⟩ := (adds [0x0a] (by decide)).2
    refine ⟨key, context, larger, made, derived, added, ?_⟩
    obtain ⟨-, -, _, resolved, -, rfl⟩ := addRecipient_eq_ok.mp added
    cases sound.resolved.symm.trans resolved
    refine ⟨_, List.mem_append_right _ (List.mem_singleton_self _), ?_⟩
    rw [sender]
    exact ⟨rfl, rfl, rfl⟩

end Oscore.SecurityContext
