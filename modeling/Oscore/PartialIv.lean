/-
This file relates sequence numbers and partial IVs.

A partial IV is a sequence number in the fewest bytes that hold it. Messages
carry it, and a reader accepts one to five bytes, with or without leading
zeros.
-/

import Oscore.Limits

namespace Oscore.PartialIv

/-- The partial IV of a sequence number. -/
def encode (sequence : Nat) : Bytes := Bytes.shortest sequence

/-- Whether a partial IV has a length that messages may carry. -/
def allowed (partialIv : Bytes) : Bool :=
  0 < partialIv.length && partialIv.length ≤ partialIvCapacity

theorem allowed_iff {partialIv : Bytes} :
    allowed partialIv ↔ 0 < partialIv.length ∧ partialIv.length ≤ partialIvCapacity := by
  rw [allowed, Bool.and_eq_true, decide_eq_true_eq, decide_eq_true_eq]

/-- The sequence number of a partial IV. -/
def decode (partialIv : Bytes) : Except Refusal Nat :=
  if allowed partialIv then .ok partialIv.toNat else .error (.partialIvLength partialIv.length)

end Oscore.PartialIv
