/-
This file lists what can be done with a context and says once what each thing
can change. An operation touches one entity at most, adds a member or replaces
the sender. Every law about runs is an induction over these changes.
-/

import Oscore.Group
import Oscore.Proofs.Adjustment

namespace Oscore

/-! ### Operations on contexts -/

/-- What is done to a context. -/
inductive Operation
  /-- Takes the next nonce. -/
  | reserve
  /-- Encrypts a message. -/
  | protect (associated plaintext : Bytes)
  /-- Decrypts a message. -/
  | unprotect (id partialIv associated ciphertext : Bytes)
  /-- Accepts a sequence number. -/
  | record (id : Bytes) (sequence : Nat)
  /-- Asks whether a sequence number must be refused. -/
  | isReplay (id : Bytes) (sequence : Nat)
  /-- Adds a member. -/
  | addRecipient (id : Bytes) (key : SigningKey)
  /-- Derives the sender anew. -/
  | replaceSender (id : Bytes) (key : SigningKey)
  /-- Uses the handle of an entity. -/
  | adjust (place : Place) (adjustment : Adjustment)
  deriving DecidableEq, Repr

/-- Whether an operation takes numbers out of the window at a place. -/
def Operation.forgets (operation : Operation) (place : Place) : Prop :=
  ∃ adjustment, operation = adjust place adjustment ∧ adjustment.forgets

/-- The context that an operation leaves. -/
def Operation.next (context : SecurityContext) : Operation → SecurityContext
  | reserve => context.reserve.context
  | protect associated plaintext => (context.protect associated plaintext).context
  | unprotect id partialIv associated ciphertext =>
    (context.unprotect id partialIv associated ciphertext).context
  | record id sequence => (context.record id sequence).context
  | isReplay _ _ => context
  | addRecipient id key => (context.addRecipient id key).toOption.getD context
  | replaceSender id key => (context.replaceSender id key).toOption.getD context
  | adjust place adjustment =>
    match context.entity? place with
    | some entity => context.setEntity place (adjustment.result entity)
    | none => context

theorem Operation.next_addRecipient {context after : SecurityContext} {id : Bytes}
    {key : SigningKey} (added : context.addRecipient id key = .ok after) :
    (Operation.addRecipient id key).next context = after := by
  rw [next, added]
  rfl

theorem Operation.next_replaceSender {context after : SecurityContext} {id : Bytes}
    {key : SigningKey} (replaced : context.replaceSender id key = .ok after) :
    (Operation.replaceSender id key).next context = after := by
  rw [next, replaced]
  rfl

namespace SecurityContext

/-- The context that some operations leave, one after another. -/
def after (context : SecurityContext) (operations : List Operation) : SecurityContext :=
  operations.foldl Operation.next context

/-- What one operation can change of the entities that are there, if it takes numbers out of some
windows only. -/
inductive Touches (forgets : Place → Prop) (before : SecurityContext) : SecurityContext → Prop
  /-- Nothing. -/
  | nothing : Touches forgets before before
  /-- One entity, which stays the same identity. -/
  | entity {place : Place} {entity next : Entity} (found : before.entity? place = some entity)
      (evolves : entity.Evolves next) (remembers : ¬forgets place → entity.Remembers next) :
      Touches forgets before (before.setEntity place next)

/-- What one operation can change that takes numbers out of some windows only. -/
inductive Changes (forgets : Place → Prop) (before : SecurityContext) : SecurityContext → Prop
  /-- Nothing. -/
  | nothing : Changes forgets before before
  /-- One entity, which stays the same identity. -/
  | entity {place : Place} {entity next : Entity} (found : before.entity? place = some entity)
      (evolves : entity.Evolves next) (remembers : ¬forgets place → entity.Remembers next) :
      Changes forgets before (before.setEntity place next)
  /-- A member is there that was not. -/
  | member {id : Bytes} {key : SigningKey} {after : SecurityContext}
      (added : before.addRecipient id key = .ok after) : Changes forgets before after
  /-- The sender is another. -/
  | sender {id : Bytes} {key : SigningKey} {after : SecurityContext}
      (replaced : before.replaceSender id key = .ok after) : Changes forgets before after

variable {forgets : Place → Prop}

theorem Touches.changes {before later : SecurityContext} (touches : before.Touches forgets later) :
    before.Changes forgets later := by
  cases touches with
  | nothing => exact .nothing
  | entity found evolves remembers => exact .entity found evolves remembers

/-! ### Looking up entities -/

@[simp] theorem entity?_senderPlace (context : SecurityContext) :
    context.entity? context.senderPlace = some context.sender := by
  simp [senderPlace, entity?]

@[simp] theorem setEntity_senderPlace (context : SecurityContext) (entity : Entity) :
    context.setEntity context.senderPlace entity = { context with sender := entity } := by
  simp [senderPlace, setEntity]

theorem recipient_eq_ok {context : SecurityContext} {id : Bytes} {entity : Entity} :
    context.recipient id = .ok entity ↔ context.recipient? id = some entity := by
  rw [recipient]
  cases context.recipient? id <;> simp

theorem mem_of_recipient? {context : SecurityContext} {id : Bytes} {entity : Entity}
    (found : context.recipient? id = some entity) : entity ∈ context.recipients :=
  List.mem_of_find?_eq_some found

theorem id_of_recipient? {context : SecurityContext} {id : Bytes} {entity : Entity}
    (found : context.recipient? id = some entity) : entity.id = id := by
  simpa using List.find?_some found

theorem acceptFrom_eq_ok {context : SecurityContext} {entity : Entity} {sequence : Nat} :
    (context.acceptFrom entity sequence).answer = .ok () ↔ entity.isReplay sequence = false := by
  rw [acceptFrom]
  split
  · rename_i refusal refused
    refine ⟨(fun answered => nomatch answered), fun free => ?_⟩
    obtain ⟨result, accepted⟩ : ∃ result, entity.accept sequence = .ok result := by
      cases window : entity.window with
      | none =>
        exact ⟨(false, entity), Entity.accept_eq_ok.mpr ⟨free, Or.inl ⟨window, rfl, rfl⟩⟩⟩
      | some _ =>
        exact ⟨(_, _), Entity.accept_eq_ok.mpr ⟨free, Or.inr ⟨_, window, rfl, rfl⟩⟩⟩
    cases refused.symm.trans accepted
  · rename_i accepted
    exact ⟨fun _ => (Entity.accept_eq_ok.mp accepted).1, fun _ => rfl⟩

/-! ### What operations touch -/

theorem reserve_touches (context : SecurityContext) :
    context.Touches forgets context.reserve.context := by
  rw [reserve]
  split
  · exact .nothing
  · split
    · exact .nothing
    · rename_i advanced
      obtain ⟨evolves, remembers⟩ := Entity.advance_evolves advanced
      have touch := @Touches.entity forgets _ _ _ _ context.entity?_senderPlace evolves
        fun _ => remembers
      rwa [setEntity_senderPlace] at touch

theorem acceptFrom_touches {context : SecurityContext} {id : Bytes} {entity : Entity}
    (found : context.recipient? id = some entity) (sequence : Nat) :
    context.Touches forgets (context.acceptFrom entity sequence).context := by
  rw [acceptFrom]
  split
  · exact .nothing
  · rename_i moved next accepted
    have place : context.entity? (.recipient id) = some entity := found
    obtain ⟨evolves, remembers⟩ := Entity.accept_evolves accepted
    exact Touches.entity place evolves fun _ => remembers

/-- Recording a number accepts it from a recipient, or changes nothing. -/
theorem record_cases (context : SecurityContext) (id : Bytes) (sequence : Nat) :
    (∃ refusal, context.record id sequence = ⟨.error refusal, context, []⟩) ∨
      ∃ entity, context.recipient? id = some entity ∧
        context.record id sequence = context.acceptFrom entity sequence := by
  rw [record]
  split
  · exact Or.inl ⟨_, rfl⟩
  · rename_i entity found
    exact Or.inr ⟨entity, recipient_eq_ok.mp found, rfl⟩

/-- Decrypting a message accepts its number from a recipient, or changes nothing. -/
theorem unprotect_cases (context : SecurityContext)
    (id partialIv associated ciphertext : Bytes) :
    (∃ refusal, context.unprotect id partialIv associated ciphertext =
      ⟨.error refusal, context, []⟩) ∨
      ∃ entity sequence plaintext, context.recipient? id = some entity ∧
        context.unprotect id partialIv associated ciphertext =
          { context.acceptFrom entity sequence with
            answer := (context.acceptFrom entity sequence).answer.map fun _ => plaintext } := by
  rw [unprotect]
  split
  · exact Or.inl ⟨_, rfl⟩
  · rename_i sequence entity found
    obtain ⟨_, -, rest⟩ := bind_eq_ok.mp found
    obtain ⟨_, there, equal⟩ := bind_eq_ok.mp rest
    cases equal
    rw [unprotectFrom]
    split
    · exact Or.inl ⟨_, rfl⟩
    · rename_i plaintext _
      exact Or.inr ⟨entity, sequence, plaintext, recipient_eq_ok.mp there, rfl⟩

theorem record_touches (context : SecurityContext) (id : Bytes) (sequence : Nat) :
    context.Touches forgets (context.record id sequence).context := by
  rcases context.record_cases id sequence with ⟨_, refused⟩ | ⟨entity, found, accepts⟩
  · rw [refused]
    exact .nothing
  · rw [accepts]
    exact acceptFrom_touches found sequence

theorem unprotect_touches (context : SecurityContext) (id partialIv associated ciphertext : Bytes) :
    context.Touches forgets
      (context.unprotect id partialIv associated ciphertext).context := by
  rcases context.unprotect_cases id partialIv associated ciphertext with
    ⟨_, refused⟩ | ⟨entity, sequence, _, found, accepts⟩
  · rw [refused]
    exact .nothing
  · rw [accepts]
    exact acceptFrom_touches found sequence

end SecurityContext

/-- An operation touches the entities that are there, or adds a member, or replaces the sender. -/
theorem Operation.next_cases (context : SecurityContext) (operation : Operation) :
    context.Touches operation.forgets (operation.next context) ∨
      (∃ id key, operation = .addRecipient id key ∧
        context.addRecipient id key = .ok (operation.next context)) ∨
      ∃ id key, operation = .replaceSender id key ∧
        context.replaceSender id key = .ok (operation.next context) := by
  cases operation with
  | reserve => exact Or.inl context.reserve_touches
  | protect associated plaintext => exact Or.inl context.reserve_touches
  | unprotect id partialIv associated ciphertext =>
    exact Or.inl (context.unprotect_touches id partialIv associated ciphertext)
  | record id sequence => exact Or.inl (context.record_touches id sequence)
  | isReplay id sequence => exact Or.inl .nothing
  | addRecipient id key =>
    rw [next]
    cases added : context.addRecipient id key with
    | error refusal => exact Or.inl .nothing
    | ok after => exact Or.inr (Or.inl ⟨id, key, rfl, added⟩)
  | replaceSender id key =>
    rw [next]
    cases replaced : context.replaceSender id key with
    | error refusal => exact Or.inl .nothing
    | ok after => exact Or.inr (Or.inr ⟨id, key, rfl, replaced⟩)
  | adjust place adjustment =>
    rw [next]
    split
    · rename_i entity found
      obtain ⟨evolves, remembers⟩ := entity.result_evolves adjustment
      refine Or.inl (.entity found evolves ?_)
      intro kept
      exact remembers fun forgets => kept ⟨adjustment, rfl, forgets⟩
    · exact Or.inl .nothing

/-- An operation changes one entity, adds a member, replaces the sender, or changes nothing. -/
theorem Operation.changes_next (context : SecurityContext) (operation : Operation) :
    context.Changes operation.forgets (operation.next context) := by
  rcases operation.next_cases context with touches | ⟨_, _, -, added⟩ | ⟨_, _, -, replaced⟩
  · exact touches.changes
  · exact .member added
  · exact .sender replaced

/-! ### Members by themselves -/

namespace ResolvedKeying

/-- The entity of a member from whom nothing was accepted yet. -/
def newMember (keying : ResolvedKeying) (member : Bytes × SigningKey) : Entity :=
  { keying.fresh member.1 (some (.empty 0 keying.limits.window)) with
    signingKey := some member.2 }

/-- Whether a member's key fits the algorithm and its identifier fits the nonce. -/
structure Admits (keying : ResolvedKeying) (algorithm : SignatureAlgorithm)
    (member : Bytes × SigningKey) : Prop where
  key_fits : member.2.fits algorithm
  id_fits : member.1.length ≤ keying.aead.identifierCapacity

theorem map_id_newMember (keying : ResolvedKeying) (members : List (Bytes × SigningKey)) :
    (members.map keying.newMember).map Entity.id = members.map Prod.fst := by
  rw [List.map_map]
  rfl

end ResolvedKeying

namespace SecurityContext

/-! ### New members and new senders -/

/-- What a replaced sender leaves. -/
theorem replaceSender_eq_ok {context after : SecurityContext} {id : Bytes} {key : SigningKey} :
    context.replaceSender id key = .ok after ↔
      (∃ algorithm, context.signatureAlgorithm = some algorithm ∧ key.fits algorithm) ∧
      context.sender.id ≠ id ∧ context.recipient? id = none ∧
      ∃ keying, context.keying.resolve = .ok keying ∧
        id.length ≤ keying.aead.identifierCapacity ∧
        after = { context with
          sender := { keying.fresh id none with signingKey := some key }
          formerSenders := context.formerSenders ++ [context.sender] } := by
  rw [replaceSender]
  cases context.signatureAlgorithm with
  | none => simp only [throw_bind, reduceCtorEq, false_and, exists_false]
  | some algorithm =>
    simp only [throw_bind, refuse_eq_ok, bind_eq_ok, pure_eq_ok, Keying.entity,
      ResolvedKeying.entity_eq_ok, ResolvedKeying.window_sender, not_or, Option.some.injEq,
      Except.ok.injEq, exists_eq_left', Bool.not_eq_true', Bool.not_eq_false,
      Option.not_isSome_iff_eq_none, and_assoc, ne_eq]
    constructor
    · rintro ⟨fits, otherId, free, entity, ⟨keying, resolved, short, rfl⟩, rfl⟩
      exact ⟨fits, otherId, free, keying, resolved, short, rfl⟩
    · rintro ⟨fits, otherId, free, keying, resolved, short, rfl⟩
      exact ⟨fits, otherId, free, _, ⟨keying, resolved, short, rfl⟩, rfl⟩

/-- A sender can be replaced after it reserved a nonce if it could be before. -/
theorem replaceSender_of_reserve {context later : SecurityContext} {id : Bytes} {key : SigningKey}
    (leaves : context.replaceSender id key = .ok later) :
    ∃ away, (Operation.reserve.next context).replaceSender id key = .ok away := by
  obtain ⟨fits, different, free, keying, known, short, -⟩ := replaceSender_eq_ok.mp leaves
  rw [Operation.next, reserve]
  split
  · exact ⟨_, leaves⟩
  · split
    · exact ⟨_, leaves⟩
    · rename_i advanced
      obtain ⟨evolves, -⟩ := Entity.advance_evolves advanced
      rw [← evolves.id_eq] at different
      exact ⟨_, replaceSender_eq_ok.mpr ⟨fits, different, free, keying, known, short, rfl⟩⟩

/-- A member is derived exactly when its key and its identifier fit. -/
theorem member_eq_ok {keying : ResolvedKeying} {algorithm : SignatureAlgorithm} {id : Bytes}
    {key : SigningKey} {entity : Entity} (window : 0 < keying.limits.window) :
    keying.member algorithm id key = .ok entity ↔
      key.fits algorithm ∧ id.length ≤ keying.aead.identifierCapacity ∧
        entity = { keying.fresh id (some (.empty 0 keying.limits.window)) with
          signingKey := some key } := by
  simp only [ResolvedKeying.member, throw_bind, refuse_eq_ok, bind_eq_ok, pure_eq_ok,
    ResolvedKeying.entity_eq_ok, ResolvedKeying.window_recipient window, Except.ok.injEq,
    exists_eq_left', Bool.not_eq_true', Bool.not_eq_false]
  constructor
  · rintro ⟨fits, _, ⟨short, rfl⟩, rfl⟩
    exact ⟨fits, short, rfl⟩
  · rintro ⟨fits, short, rfl⟩
    exact ⟨fits, _, ⟨short, rfl⟩, rfl⟩

/-- Members are derived exactly when each of them is admitted by itself. -/
theorem mapM_member_eq_ok {keying : ResolvedKeying} {algorithm : SignatureAlgorithm}
    {members : List (Bytes × SigningKey)} {recipients : List Entity}
    (window : 0 < keying.limits.window) :
    (members.mapM fun member => keying.member algorithm member.1 member.2) = .ok recipients ↔
      (∀ member ∈ members, keying.Admits algorithm member) ∧
        recipients = members.map keying.newMember := by
  induction members generalizing recipients with
  | nil =>
    rw [List.mapM_nil, pure_eq_ok]
    simp [eq_comm]
  | cons member rest inductionHypothesis =>
    simp only [List.mapM_cons, bind_eq_ok, pure_eq_ok, member_eq_ok window, inductionHypothesis,
      List.forall_mem_cons]
    constructor
    · rintro ⟨_, ⟨fits, short, rfl⟩, _, ⟨others, rfl⟩, rfl⟩
      exact ⟨⟨⟨fits, short⟩, others⟩, rfl⟩
    · rintro ⟨⟨⟨fits, short⟩, others⟩, rfl⟩
      exact ⟨_, ⟨fits, short, rfl⟩, _, ⟨others, rfl⟩, rfl⟩

/-- What an added member leaves. -/
theorem addRecipient_eq_ok {context after : SecurityContext} {id : Bytes} {key : SigningKey} :
    context.addRecipient id key = .ok after ↔
      (∃ algorithm, context.signatureAlgorithm = some algorithm ∧ key.fits algorithm) ∧
      context.recipient? id = none ∧
      ∃ keying, context.keying.resolve = .ok keying ∧
        id.length ≤ keying.aead.identifierCapacity ∧
        after = { context with
          recipients := context.recipients ++ [{ keying.fresh id
            (some (.empty 0 keying.limits.window)) with signingKey := some key }] } := by
  rw [addRecipient]
  cases context.signatureAlgorithm with
  | none =>
    constructor
    · intro equal
      cases equal
    · rintro ⟨⟨_, equal, _⟩, _⟩
      cases equal
  | some algorithm =>
    simp only [throw_bind, refuse_eq_ok, bind_eq_ok, pure_eq_ok, Option.some.injEq,
      exists_eq_left', Bool.not_eq_true', Bool.not_eq_false, Option.not_isSome_iff_eq_none]
    refine and_congr_right fun fits => and_congr_right fun _ => exists_congr fun keying =>
      and_congr_right fun resolved => ?_
    simp only [member_eq_ok (Keying.limits_of_resolve resolved).2.2]
    constructor
    · rintro ⟨_, ⟨-, short, rfl⟩, rfl⟩
      exact ⟨short, rfl⟩
    · rintro ⟨short, rfl⟩
      exact ⟨_, ⟨fits, short, rfl⟩, rfl⟩

/-- No change gives a context another number or another keying. -/
theorem Changes.identity_eq {before later : SecurityContext}
    (changes : before.Changes forgets later) :
    later.number = before.number ∧ later.keying = before.keying := by
  cases changes with
  | nothing => exact ⟨rfl, rfl⟩
  | @entity place _ _ _ _ _ =>
    cases place with
    | sender generation =>
      rw [setEntity]
      split <;> exact ⟨rfl, rfl⟩
    | recipient id => exact ⟨rfl, rfl⟩
  | member added =>
    obtain ⟨-, -, _, -, -, rfl⟩ := addRecipient_eq_ok.mp added
    exact ⟨rfl, rfl⟩
  | sender replaced =>
    obtain ⟨-, -, -, _, -, -, rfl⟩ := replaceSender_eq_ok.mp replaced
    exact ⟨rfl, rfl⟩

end SecurityContext

end Oscore
