/-
This file follows the nonces that a context hands out over a run. Each is
handed out in a turn: by the sender of some generation, at some sequence
number. Within a generation the numbers grow, and generations only go up, so
the turns of a run are in order. The nonce of a turn is determined by the
identifier and the number, and determines them.
-/

import Oscore.Proofs.NonceLayout
import Oscore.Proofs.PartialIvCodec
import Oscore.Proofs.Reachable

namespace Oscore

/-! ### One reservation -/

/-- A nonce that a context handed out, with the key that it goes with. -/
structure Reservation extends SecurityContext.ReservedNonce where
  /-- How many senders the sender had replaced. -/
  generation : Nat
  /-- The key of the sender. -/
  key : Bytes
  deriving DecidableEq, Repr

namespace Operation

/-- Whether an operation takes a nonce. -/
def reserves : Operation → Bool
  | reserve | protect _ _ => true
  | _ => false

/-- The nonce that an operation takes, if it takes one and one is left. A message that cannot be
encrypted has taken its nonce all the same. -/
def reservation (context : SecurityContext) (operation : Operation) : Option Reservation :=
  if operation.reserves then
    match context.reserve.answer with
    | .ok reserved => some { reserved with
        generation := context.formerSenders.length, key := context.sender.key }
    | .error _ => none
  else none

theorem next_of_reserves {context : SecurityContext} {operation : Operation}
    (reserves : operation.reserves) : operation.next context = context.reserve.context := by
  cases operation with
  | reserve => rfl
  | protect associated plaintext => rfl
  | _ => cases reserves

end Operation

namespace SecurityContext

variable {context before later : SecurityContext} {keying : ResolvedKeying}

/-- The nonces that a run of operations takes, in their order. -/
def reservations (context : SecurityContext) : List Operation → List Reservation
  | [] => []
  | operation :: rest =>
    (operation.reservation context).toList ++ (operation.next context).reservations rest

/-- The reservation that is next in turn. -/
def upcoming (context : SecurityContext) (keying : ResolvedKeying) : Reservation where
  sender := context.sender.id
  sequence := context.sender.sequence
  partialIv := PartialIv.encode context.sender.sequence
  nonce := keying.nonceOf context.sender.id (PartialIv.encode context.sender.sequence)
  generation := context.formerSenders.length
  key := context.sender.key

theorem Sound.length_partialIv_le (sound : context.Sound keying) :
    (context.upcoming keying).partialIv.length ≤ partialIvReserved :=
  PartialIv.length_encode_le sound.bounded.sequence_le_ceiling

/-- A sender makes the nonce that is next in turn. -/
theorem Sound.nonce_upcoming (sound : context.Sound keying) :
    context.sender.nonce (context.upcoming keying).partialIv =
      .ok (context.upcoming keying).nonce :=
  sound.derived.nonce_eq (PartialIv.length_encode_pos _) sound.length_partialIv_le

theorem Sound.length_nonce_upcoming (sound : context.Sound keying) :
    (context.upcoming keying).nonce.length = keying.aead.nonceLength :=
  ResolvedKeying.length_nonceOf sound.derived.id_fits sound.length_partialIv_le

/-- The complete law of taking a nonce. -/
theorem Sound.reserve_eq (sound : context.Sound keying) :
    context.reserve =
      if context.sender.exhausted then
        ⟨.error (.sequenceExhausted context.sender.maximum), context,
          [.exhausted context.sender.id context.sender.sequence]⟩
      else {
        answer := .ok (context.upcoming keying).toReservedNonce
        context := { context with
          sender := { context.sender with sequence := context.sender.sequence + 1 } }
        notices :=
          if (context.sender.sequence + 1) % context.sender.interval = 0 then
            [.persist context.sender.id (context.sender.sequence + 1)]
          else [] } := by
  have nonce : context.sender.nonce context.sender.partialIv = _ := sound.nonce_upcoming
  rw [reserve, nonce, Entity.advance]
  by_cases exhausted : context.sender.exhausted
  · simp only [exhausted, if_true]
  · simp only [exhausted, Bool.false_eq_true, if_false, decide_eq_true_eq]
    rfl

theorem Sound.reserve_eq_of_left (sound : context.Sound keying)
    (left : context.sender.sequence < context.sender.maximum) :
    context.reserve = {
      answer := .ok (context.upcoming keying).toReservedNonce
      context := { context with
        sender := { context.sender with sequence := context.sender.sequence + 1 } }
      notices :=
        if (context.sender.sequence + 1) % context.sender.interval = 0 then
          [.persist context.sender.id (context.sender.sequence + 1)]
        else [] } := by
  have notExhausted : ¬context.sender.exhausted := by
    rw [Entity.exhausted, decide_eq_true_eq]
    exact Nat.not_le.mpr left
  rw [sound.reserve_eq, if_neg notExhausted]

theorem Sound.reservation_eq_some (sound : context.Sound keying) {operation : Operation}
    {reservation : Reservation} :
    operation.reservation context = some reservation ↔
      operation.reserves ∧ context.sender.sequence < context.sender.maximum ∧
        reservation = context.upcoming keying := by
  rw [Operation.reservation, sound.reserve_eq]
  by_cases exhausted : context.sender.exhausted
  · have used := exhausted
    rw [Entity.exhausted, decide_eq_true_eq, ← Nat.not_lt] at used
    simp only [exhausted, if_true, ite_self, reduceCtorEq, used, false_and, and_false]
  · have left := exhausted
    rw [Entity.exhausted, decide_eq_true_eq, Nat.not_le] at left
    by_cases reserves : operation.reserves
    · simp only [exhausted, reserves, left, true_and, if_true, Bool.false_eq_true, if_false,
        Option.some.injEq]
      exact eq_comm
    · simp only [reserves, Bool.false_eq_true, if_false, reduceCtorEq, false_and]

theorem Sound.next_of_reservation (sound : context.Sound keying) {operation : Operation}
    {reservation : Reservation}
    (reserved : operation.reservation context = some reservation) :
    operation.next context = { context with
      sender := { context.sender with sequence := context.sender.sequence + 1 } } := by
  obtain ⟨reserves, left, -⟩ := sound.reservation_eq_some.mp reserved
  rw [Operation.next_of_reserves reserves, sound.reserve_eq_of_left left]

end SecurityContext

/-! ### Turns -/

/-- When a sequence number is taken: by which generation of the sender, and which number. -/
structure Turn where
  generation : Nat
  sender : Bytes
  sequence : Nat
  deriving DecidableEq, Repr

namespace Turn

/-- One turn is the other or comes before it. -/
def Upto (first second : Turn) : Prop :=
  first.generation < second.generation ∨ first.generation = second.generation ∧
    first.sender = second.sender ∧ first.sequence ≤ second.sequence

/-- One turn comes before another. -/
def Before (first second : Turn) : Prop :=
  first.generation < second.generation ∨ first.generation = second.generation ∧
    first.sender = second.sender ∧ first.sequence < second.sequence

theorem Upto.refl (turn : Turn) : turn.Upto turn := Or.inr ⟨rfl, rfl, Nat.le_refl _⟩

theorem Upto.trans {first second third : Turn} (left : first.Upto second)
    (right : second.Upto third) : first.Upto third := by
  obtain earlier | ⟨sameLeft, senderLeft, orderLeft⟩ := left <;>
    obtain later | ⟨sameRight, senderRight, orderRight⟩ := right
  · exact Or.inl (Nat.lt_trans earlier later)
  · exact Or.inl (sameRight ▸ earlier)
  · exact Or.inl (sameLeft ▸ later)
  · exact Or.inr ⟨sameLeft.trans sameRight, senderLeft.trans senderRight,
      Nat.le_trans orderLeft orderRight⟩

theorem Before.trans_upto {first second third : Turn} (left : first.Before second)
    (right : second.Upto third) : first.Before third := by
  obtain earlier | ⟨sameLeft, senderLeft, orderLeft⟩ := left <;>
    obtain later | ⟨sameRight, senderRight, orderRight⟩ := right
  · exact Or.inl (Nat.lt_trans earlier later)
  · exact Or.inl (sameRight ▸ earlier)
  · exact Or.inl (sameLeft ▸ later)
  · exact Or.inr ⟨sameLeft.trans sameRight, senderLeft.trans senderRight,
      Nat.lt_of_lt_of_le orderLeft orderRight⟩

end Turn

/-- The turn that a nonce was taken in. -/
def Reservation.turn (reservation : Reservation) : Turn :=
  ⟨reservation.generation, reservation.sender, reservation.sequence⟩

namespace SecurityContext

variable {context before later : SecurityContext} {keying : ResolvedKeying}

/-- The turn that a context is at. -/
def turn (context : SecurityContext) : Turn :=
  ⟨context.formerSenders.length, context.sender.id, context.sender.sequence⟩

theorem turn_setEntity {place : Place} {entity next : Entity}
    (found : context.entity? place = some entity) (evolves : entity.Evolves next) :
    context.turn.Upto (context.setEntity place next).turn := by
  cases place with
  | sender generation =>
    rw [setEntity]
    split
    · rename_i current
      rw [current] at found
      cases context.entity?_senderPlace.symm.trans found
      exact Or.inr ⟨rfl, evolves.id_eq.symm, evolves.sequence_le⟩
    · exact Or.inr ⟨(List.length_set ..).symm, rfl, Nat.le_refl _⟩
  | recipient id => exact Turn.Upto.refl _

/-- No operation goes back behind a turn. -/
theorem Changes.turn_upto {forgets : Place → Prop} (changes : before.Changes forgets later) :
    before.turn.Upto later.turn := by
  cases changes with
  | nothing => exact Turn.Upto.refl _
  | entity found evolves => exact turn_setEntity found evolves
  | member added =>
    obtain ⟨-, -, _, -, -, rfl⟩ := addRecipient_eq_ok.mp added
    exact Turn.Upto.refl _
  | sender replaced =>
    obtain ⟨-, -, -, _, -, -, rfl⟩ := replaceSender_eq_ok.mp replaced
    exact Or.inl (by simp [turn])

/-- A nonce is taken in the turn of the context, which then moves on. -/
theorem Sound.turn_of_reservation (sound : context.Sound keying) {operation : Operation}
    {reservation : Reservation}
    (reserved : operation.reservation context = some reservation) :
    reservation.turn = context.turn ∧ reservation.turn.Before (operation.next context).turn := by
  have next := sound.next_of_reservation reserved
  obtain ⟨-, -, rfl⟩ := sound.reservation_eq_some.mp reserved
  rw [next]
  exact ⟨rfl, Or.inr ⟨rfl, rfl, Nat.lt_succ_self _⟩⟩

theorem Sound.upto_of_mem_reservations (sound : context.Sound keying)
    {operations : List Operation} {reservation : Reservation}
    (member : reservation ∈ context.reservations operations) :
    context.turn.Upto reservation.turn := by
  induction operations generalizing context with
  | nil => cases member
  | cons operation rest inductionHypothesis =>
    rcases List.mem_append.mp member with now | afterwards
    · rw [Option.mem_toList] at now
      rw [(sound.turn_of_reservation now).1]
      exact Turn.Upto.refl _
    · exact (operation.changes_next context).turn_upto.trans
        (inductionHypothesis (sound.next operation) afterwards)

/-- The nonces of a run are taken in turn. -/
theorem Sound.reservations_pairwise (sound : context.Sound keying)
    (operations : List Operation) :
    (context.reservations operations).Pairwise fun first second =>
      first.turn.Before second.turn := by
  induction operations generalizing context with
  | nil => exact List.Pairwise.nil
  | cons operation rest inductionHypothesis =>
    rw [reservations, List.pairwise_append]
    refine ⟨?_, inductionHypothesis (sound.next operation), ?_⟩
    · cases operation.reservation context <;> simp
    · intro first now second afterwards
      rw [Option.mem_toList] at now
      exact (sound.turn_of_reservation now).2.trans_upto
        ((sound.next operation).upto_of_mem_reservations afterwards)

end SecurityContext

/-! ### What a turn determines -/

/-- A nonce that belongs to its identifier and number. -/
structure Reservation.DerivedBy (reservation : Reservation) (keying : ResolvedKeying) : Prop where
  id_fits : reservation.sender.length ≤ keying.aead.identifierCapacity
  key_eq : reservation.key = keying.keyOf reservation.sender
  partialIv_eq : reservation.partialIv = PartialIv.encode reservation.sequence
  nonce_eq : reservation.nonce = keying.nonceOf reservation.sender reservation.partialIv
  sequence_lt : reservation.sequence < sequenceCeiling

theorem Reservation.DerivedBy.nonce_inj {first second : Reservation} {keying : ResolvedKeying}
    (derived : first.DerivedBy keying) (other : second.DerivedBy keying) :
    first.nonce = second.nonce ↔
      first.sender = second.sender ∧ first.sequence = second.sequence := by
  have short := PartialIv.length_encode_le (Nat.le_of_lt derived.sequence_lt)
  have otherShort := PartialIv.length_encode_le (Nat.le_of_lt other.sequence_lt)
  rw [derived.nonce_eq, other.nonce_eq, derived.partialIv_eq, other.partialIv_eq,
    ResolvedKeying.nonceOf_inj derived.id_fits other.id_fits short otherShort,
    PartialIv.toNat_encode, PartialIv.toNat_encode]

/-- The key and the nonce together belong to one identifier and number too. -/
theorem Reservation.DerivedBy.key_nonce_inj {first second : Reservation} {keying : ResolvedKeying}
    (derived : first.DerivedBy keying) (other : second.DerivedBy keying) :
    (first.key, first.nonce) = (second.key, second.nonce) ↔
      first.sender = second.sender ∧ first.sequence = second.sequence := by
  rw [Prod.mk.injEq, derived.nonce_inj other, derived.key_eq, other.key_eq]
  constructor
  · rintro ⟨-, same⟩
    exact same
  · rintro ⟨sender, sequence⟩
    exact ⟨congrArg keying.keyOf sender, sender, sequence⟩

theorem SecurityContext.Sound.reservations_derivedBy {context : SecurityContext}
    {keying : ResolvedKeying} (sound : context.Sound keying) {operations : List Operation}
    {reservation : Reservation} (member : reservation ∈ context.reservations operations) :
    reservation.DerivedBy keying := by
  induction operations generalizing context with
  | nil => cases member
  | cons operation rest inductionHypothesis =>
    rcases List.mem_append.mp member with now | afterwards
    · rw [Option.mem_toList] at now
      obtain ⟨-, left, rfl⟩ := sound.reservation_eq_some.mp now
      exact ⟨sound.derived.id_fits, sound.derived.key_eq, rfl, rfl,
        Nat.lt_of_lt_of_le left sound.bounded.maximum_le⟩
    · exact inductionHypothesis (sound.next operation) afterwards

end Oscore
