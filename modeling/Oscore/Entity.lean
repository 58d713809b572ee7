/-
This file defines one identity inside a security context.

An entity has a key, a base IV into which its identifier is folded, and a
sequence number with its limits. A recipient also has a replay window, a
member of a group a signing key. A nonce is the base IV with a partial IV added
to its last bytes.
-/

import Oscore.PartialIv
import Oscore.ReplayWindow
import Oscore.SigningKey

namespace Oscore

/-- One identity inside a security context. -/
structure Entity where
  /-- The identifier that messages carry. -/
  id : Bytes
  /-- The symmetric key. -/
  key : Bytes
  /-- The IV with the identifier folded in. -/
  baseIv : Bytes
  /-- The sequence number that the next message takes. -/
  sequence : Nat
  /-- The sequence number at which the entity is exhausted. -/
  maximum : Nat
  /-- How many sequence numbers pass between two reminders to persist. -/
  interval : Nat
  /-- The accepted sequence numbers, for a recipient. -/
  window : Option ReplayWindow
  /-- The key for countersignatures, for a member of a group. -/
  signingKey : Option SigningKey
  deriving DecidableEq, Repr, Inhabited

namespace Entity

/-! ### Sequence numbers -/

/-- Whether no sequence number is left. -/
def exhausted (entity : Entity) : Bool := entity.maximum ≤ entity.sequence

/-- Takes a sequence number. The answer says whether the next number should be persisted before
it is used. -/
def advance (entity : Entity) : Except Refusal (Bool × Entity) :=
  if entity.exhausted then .error (.sequenceExhausted entity.maximum)
  else
    let next := entity.sequence + 1
    .ok (next % entity.interval = 0, { entity with sequence := next })

/-- Goes on from a persisted sequence number, which may not lie behind. -/
def restore (entity : Entity) (value : Nat) : Except Refusal Entity :=
  if value < entity.sequence ∨ entity.maximum < value then .error (.bound value entity.maximum)
  else .ok { entity with sequence := value }

/-- Changes the maximum, which may not lie behind the sequence number nor beyond what a partial
IV carries. -/
def setMaximum (entity : Entity) (maximum : Nat) : Except Refusal Entity :=
  if sequenceCeiling < maximum ∨ maximum < entity.sequence then
    .error (.bound maximum sequenceCeiling)
  else .ok { entity with maximum }

/-- Changes the interval, which may not be zero. -/
def setInterval (entity : Entity) (interval : Nat) : Except Refusal Entity :=
  if interval = 0 then .error (.bound 0 sequenceCeiling) else .ok { entity with interval }

/-! ### Nonces -/

/-- The partial IV of the sequence number. -/
def partialIv (entity : Entity) : Bytes := PartialIv.encode entity.sequence

/-- The nonce of a partial IV. -/
def nonce (entity : Entity) (partialIv : Bytes) : Except Refusal Bytes :=
  if partialIv.length = 0 ∨ min partialIvCapacity entity.baseIv.length < partialIv.length then
    .error (.partialIvLength partialIv.length)
  else .ok (Bytes.xorAt (entity.baseIv.length - partialIv.length) partialIv entity.baseIv)

/-! ### Accepted numbers -/

/-- Whether a sequence number from this entity must be refused. -/
def isReplay (entity : Entity) (sequence : Nat) : Bool :=
  match entity.window with
  | some window => window.contains sequence
  | none => false

/-- Accepts a sequence number that must not be refused. The answer says whether the window
moved. -/
def accept (entity : Entity) (sequence : Nat) : Except Refusal (Bool × Entity) :=
  match entity.window with
  | some window =>
    if window.contains sequence then .error (.replay sequence)
    else
      let (moved, next) := window.accept sequence
      .ok (moved, { entity with window := some next })
  | none => .ok (false, entity)

/-- A copy in whose window nothing was accepted. -/
def duplicate (entity : Entity) : Entity :=
  { entity with window := entity.window.map ReplayWindow.cleared }

end Entity

end Oscore
