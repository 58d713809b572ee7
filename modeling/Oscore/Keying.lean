/-
This file defines what the entities of one context are derived from.

Keying names its algorithms by integers, as they arrive. They are resolved when
something is derived, after the limits have been checked.
-/

import Oscore.Algorithm

namespace Oscore

/-- The shared input of every derivation in a context. -/
structure Keying where
  /-- The master secret. -/
  secret : Bytes
  /-- The master salt. -/
  salt : Bytes := []
  /-- The identifier of the group, if there is one. -/
  idContext : Option Bytes := none
  /-- The identifier of the AEAD algorithm. -/
  aead : Int := AeadAlgorithm.standard.identifier
  /-- The identifier of the key derivation, if one was chosen. -/
  kdf : Option Int := none
  /-- The limits of the derived entities. -/
  limits : Limits := {}
  deriving DecidableEq, Repr, Inhabited

/-- Keying whose limits are permitted and whose algorithms are known. -/
structure ResolvedKeying where
  secret : Bytes
  salt : Bytes
  idContext : Option Bytes
  aead : AeadAlgorithm
  kdf : KdfAlgorithm
  limits : Limits
  deriving DecidableEq, Repr

/-- Checks the limits, then the AEAD algorithm, then the key derivation. -/
def Keying.resolve (keying : Keying) : Except Refusal ResolvedKeying := do
  keying.limits.check
  let aead ← (AeadAlgorithm.ofIdentifier keying.aead).mapError .failure
  let kdf ← (KdfAlgorithm.ofIdentifier keying.kdf).mapError .failure
  return { secret := keying.secret, salt := keying.salt, idContext := keying.idContext
           aead, kdf, limits := keying.limits }

end Oscore
