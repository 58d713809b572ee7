/-
This file compares two ways to make a nonce. An entity folds its identifier into
the common IV when it is derived, and adds a partial IV to the last bytes when a
message is sent. The protocol describes the nonce at once, as the common IV
exclusive-ored with a layout of both. The two agree for every identifier that
derivation accepts and every partial IV that messages may carry, whatever the
derivation of bytes gives. So two partial IVs make one nonce exactly when they
write one number.
-/

import Oscore.Proofs.NonceSpaces
import Oscore.Proofs.PartialIvCodec

namespace Oscore

open Bytes

/-! ### Any derivation of bytes -/

/-- A way to derive bytes: from an algorithm, a secret, a salt, what the bytes are for, and how
many are wanted. -/
abbrev ByteDerivation := KdfAlgorithm → Bytes → Bytes → Bytes → Nat → Except Refusal Bytes

namespace ByteDerivation

/-- Derives as many bytes as are wanted, if any. -/
def Fills (expand : ByteDerivation) : Prop :=
  ∀ kdf secret salt info length output,
    expand kdf secret salt info length = .ok output → output.length = length

/-- The derivation that entities use. -/
def hkdf : ByteDerivation := fun kdf secret salt info length =>
  (kdf.hash.derive secret salt info length).mapError .failure

theorem fills_hkdf : hkdf.Fills := by
  intro kdf secret salt info length output derived
  have made := mapError_eq_ok.mp derived
  have digests := kdf.digestLength_hash
  obtain ⟨short, -⟩ := refuse_eq_ok.mp made
  obtain ⟨other, same, full⟩ := kdf.hash.derive_isOk secret salt info
    (by omega : 0 < kdf.hash.digestLength) (Nat.not_lt.mp short)
  cases made.symm.trans same
  exact full

end ByteDerivation

/-- The bytes for an identifier and a purpose, with some derivation of bytes. -/
def ResolvedKeying.deriveBy (expand : ByteDerivation) (keying : ResolvedKeying) (id : Bytes)
    (purpose : Purpose) (length : Nat) : Except Refusal Bytes :=
  expand keying.kdf keying.secret keying.salt
    (derivationInfo id keying.idContext keying.aead purpose length) length

theorem ResolvedKeying.deriveBy_hkdf (keying : ResolvedKeying) :
    keying.deriveBy .hkdf = keying.derive := rfl

/-! ### Nonces along the layout -/

namespace Entity

variable {entity : Entity} {common : Bytes}

/-- The nonces of an entity are those of the layout over a common IV of the given length: every
partial IV that messages may carry makes one, and no other does. Two make the same nonce, or are
refused alike, exactly when they decode alike. -/
structure FollowsLayout (entity : Entity) (common : Bytes) (length : Nat) : Prop where
  length_layout : ∀ partialIv, PartialIv.allowed partialIv →
    (nonceLayout length entity.id partialIv).length = length
  nonce_eq : ∀ partialIv, PartialIv.allowed partialIv →
    entity.nonce partialIv = .ok (xor common (nonceLayout length entity.id partialIv))
  nonce_eq_iff : ∀ partialIv otherIv, entity.nonce partialIv = entity.nonce otherIv ↔
    PartialIv.decode partialIv = PartialIv.decode otherIv

theorem followsLayout_of_folded (folded : entity.baseIv = foldIdentifier common entity.id)
    (fits : entity.id.length + identifierOverhead ≤ common.length)
    (byte : common.length ≤ 256) : entity.FollowsLayout common common.length := by
  have laidOut (partialIv : Bytes) (permitted : PartialIv.allowed partialIv) :
      entity.nonce partialIv =
        .ok (xor common (nonceLayout common.length entity.id partialIv)) := by
    obtain ⟨positive, short⟩ := PartialIv.allowed_iff.mp permitted
    exact nonce_of_folded folded fits positive short
  refine ⟨?_, laidOut, ?_⟩
  · intro partialIv permitted
    exact length_nonceLayout fits (PartialIv.allowed_iff.mp permitted).2
  · intro partialIv otherIv
    by_cases permitted : PartialIv.allowed partialIv
    · rw [laidOut partialIv permitted, PartialIv.decode_of_allowed permitted]
      by_cases otherPermitted : PartialIv.allowed otherIv
      · have short := (PartialIv.allowed_iff.mp permitted).2
        have otherShort := (PartialIv.allowed_iff.mp otherPermitted).2
        rw [laidOut otherIv otherPermitted, PartialIv.decode_of_allowed otherPermitted,
          Except.ok.injEq, Except.ok.injEq,
          xor_nonceLayout_inj fits fits byte short otherShort, and_iff_right rfl]
      · rw [nonce_of_not_allowed otherPermitted, PartialIv.decode_of_not_allowed otherPermitted]
        simp only [reduceCtorEq]
    · rw [nonce_of_not_allowed permitted, PartialIv.decode_of_not_allowed permitted]
      by_cases otherPermitted : PartialIv.allowed otherIv
      · rw [laidOut otherIv otherPermitted, PartialIv.decode_of_allowed otherPermitted]
        simp only [reduceCtorEq]
      · rw [nonce_of_not_allowed otherPermitted, PartialIv.decode_of_not_allowed otherPermitted]
        simp only [Except.error.injEq]

end Entity

/-! ### Derived entities -/

namespace ResolvedKeying

variable {keying : ResolvedKeying} {expand : ByteDerivation}

theorem followsLayout_of_entityWith (fills : expand.Fills) {id : Bytes} {role : Role}
    {entity : Entity} (derived : keying.entityWith (keying.deriveBy expand) id role = .ok entity) :
    entity.id = id ∧ ∃ common,
      keying.deriveBy expand [] .iv keying.aead.nonceLength = .ok common ∧
      entity.FollowsLayout common keying.aead.nonceLength := by
  obtain ⟨fits, rfl, common, given, folded⟩ := folded_of_entityWith derived
  have full := fills _ _ _ _ _ common given
  have room := AeadAlgorithm.fits_of_le fits
  have byte := keying.aead.nonceLength_le_byte
  rw [← full] at room byte
  have follows := Entity.followsLayout_of_folded folded room byte
  rw [full] at follows
  exact ⟨rfl, common, given, follows⟩

end ResolvedKeying

/-- Whatever the derivation of bytes is, the nonces of a derived entity are the common IV, which is
derived for the empty identifier, exclusive-ored with one byte for the length of the identifier, the
identifier behind zeros and the partial IV behind zeros. So it is with the derivation that entities
use, for all keying that is accepted. -/
theorem Entity.nonces_follow_layout :
    (∀ expand : ByteDerivation, expand.Fills →
      ∀ (keying : ResolvedKeying) (id : Bytes) (role : Role) (entity : Entity),
        keying.entityWith (keying.deriveBy expand) id role = .ok entity →
        entity.id = id ∧ ∃ common,
          expand keying.kdf keying.secret keying.salt
            (derivationInfo [] keying.idContext keying.aead .iv keying.aead.nonceLength)
            keying.aead.nonceLength = .ok common ∧
          entity.FollowsLayout common keying.aead.nonceLength) ∧
      ∀ (keying : Keying) (id : Bytes) (role : Role) (entity : Entity),
        keying.entity id role = .ok entity →
        ∃ resolved, keying.resolve = .ok resolved ∧ entity.id = id ∧ ∃ common,
          resolved.derive [] .iv resolved.aead.nonceLength = .ok common ∧
          entity.FollowsLayout common resolved.aead.nonceLength := by
  constructor
  · intro expand fills keying id role entity derived
    exact keying.followsLayout_of_entityWith fills derived
  · intro keying id role entity derived
    obtain ⟨resolved, known, made⟩ := bind_eq_ok.mp derived
    rw [← ResolvedKeying.entityWith_derive, ← ResolvedKeying.deriveBy_hkdf] at made
    exact ⟨resolved, known, resolved.followsLayout_of_entityWith ByteDerivation.fills_hkdf made⟩

/-- With the longest identifier nothing lies between it and its length. Over an IV of zeros the
nonce is the layout itself, and leading zeros of the partial IV make no difference. -/
theorem Entity.nonces_follow_layout_longest :
    ∃ (keying : ResolvedKeying) (entity : Entity),
      keying.entityWith (keying.deriveBy fun _ _ _ _ length => .ok (List.replicate length 0))
        [1, 2, 3, 4, 5, 6, 7] .sender = .ok entity ∧
      entity.nonce [0x12] = .ok [7, 1, 2, 3, 4, 5, 6, 7, 0, 0, 0, 0, 0x12] ∧
      entity.nonce [0, 0, 0, 0, 0x12] = entity.nonce [0x12] ∧
      entity.nonce [0x12, 0] ≠ entity.nonce [0x12] ∧
      ∃ own, Keying.entity { secret := [1] } [1, 2, 3, 4, 5, 6, 7] .recipient = .ok own ∧
        own.nonce [0, 0, 0, 0, 0x12] = own.nonce [0x12] := by
  let zeros : ByteDerivation := fun _ _ _ _ length => .ok (List.replicate length 0)
  have fills : zeros.Fills := by
    intro kdf secret salt info length output derived
    cases derived
    exact List.length_replicate
  let keying : ResolvedKeying := ⟨[1], [], none, .aesCcm8, .sha256, {}⟩
  obtain ⟨entity, derived⟩ : ∃ entity, keying.entityWith (keying.deriveBy zeros)
      [1, 2, 3, 4, 5, 6, 7] .sender = .ok entity := ⟨_, rfl⟩
  obtain ⟨withAny, withOwn⟩ := nonces_follow_layout
  obtain ⟨sameId, common, given, follows⟩ := withAny zeros fills keying _ _ entity derived
  cases given
  have known : Keying.resolve { secret := [1] } = .ok keying := rfl
  obtain ⟨own, ownDerived⟩ := (Keying.entity_isOk_iff known [1, 2, 3, 4, 5, 6, 7] .recipient).mpr
    (by decide)
  obtain ⟨_, -, -, _, -, ownFollows⟩ := withOwn _ _ _ own ownDerived
  refine ⟨keying, entity, derived, ?_, (follows.nonce_eq_iff _ _).mpr rfl, ?_,
    own, ownDerived, (ownFollows.nonce_eq_iff _ _).mpr rfl⟩
  · rw [follows.nonce_eq [0x12] rfl, sameId]
    rfl
  · intro same
    have numbers := (follows.nonce_eq_iff _ _).mp same
    rw [PartialIv.decode_of_allowed rfl, PartialIv.decode_of_allowed rfl,
      Except.ok.injEq] at numbers
    exact absurd numbers (by decide)

end Oscore
