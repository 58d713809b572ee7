/-
This file holds the numbers that the protocol fixes and the limits that an
application may choose.

The limits are checked once, when a context is derived, and then copied into
every entity of that context.
-/

import Oscore.Failure

namespace Oscore

/-! ### Numbers fixed by the protocol -/

/-- The largest sequence number that a partial IV of five bytes carries, `2 ^ 40 - 1`. -/
def sequenceCeiling : Nat := 0xffffffffff

/-- The largest value of an unsigned 64-bit word, `2 ^ 64 - 1`. -/
def wordCeiling : Nat := 0xffffffffffffffff

/-- The longest partial IV, in bytes. -/
def partialIvCapacity : Nat := 5

/-- The trailing bytes of a base IV that are kept for the partial IV. -/
def partialIvReserved : Nat := 5

/-- The bytes of a base IV that no identifier may reach: one for its length, five for the
partial IV. -/
def identifierOverhead : Nat := 6

/-- The length of the shared secret that salts a pairwise context. -/
def pairwiseSecretLength : Nat := 32

/-- Response code 4.01, given when an identifier cannot be resolved. -/
def unauthorized : UInt8 := 0x81

/-! ### Limits chosen by the application -/

/-- The limits copied into every entity of a context. -/
structure Limits where
  /-- The highest sequence number that a sender may reach. -/
  maximum : Nat := 0xFFFFF
  /-- How many sequence numbers pass between two reminders to persist. -/
  interval : Nat := 100
  /-- The size of a recipient's replay window. -/
  window : Nat := 64
  deriving DecidableEq, Repr

namespace Limits

/-- Accepts limits whose maximum fits a partial IV and whose interval and window are not empty.
The fields are checked in this order. -/
def check (limits : Limits) : Except Refusal Unit :=
  if limits.maximum > sequenceCeiling then .error (.bound limits.maximum sequenceCeiling)
  else if limits.interval = 0 then .error (.bound 0 sequenceCeiling)
  else if limits.window = 0 then .error (.bound 0 wordCeiling)
  else .ok ()

end Limits

end Oscore
