/-
This file gives nonces the form that the protocol describes: the common IV,
exclusive-ored with one byte for the length of the identifier, the identifier
behind zeros, and the partial IV behind zeros. Identifiers are folded in when
an entity is derived and partial IVs when a message is sent; the two stages
together are one exclusive or with this layout.

The layout determines the identifier and the number of the partial IV. So two
nonces over one common IV are equal only when both agree.
-/

import Oscore.Proofs.ByteNumbers
import Oscore.Proofs.Derivation

namespace Oscore

open Bytes

/-! ### The layout -/

/-- The mask of a nonce: the length of the identifier, the identifier in the bytes before the
last five, and the partial IV in those five. -/
def nonceLayout (length : Nat) (id partialIv : Bytes) : Bytes :=
  UInt8.ofNat id.length ::
    (padLeft (length - identifierOverhead) id ++ padLeft partialIvReserved partialIv)

theorem length_nonceLayout {length : Nat} {id partialIv : Bytes}
    (fits : id.length + identifierOverhead ≤ length)
    (short : partialIv.length ≤ partialIvReserved) :
    (nonceLayout length id partialIv).length = length := by
  have idRoom : id.length ≤ length - identifierOverhead := by omega
  rw [nonceLayout, List.length_cons, List.length_append, length_padLeft idRoom,
    length_padLeft short]
  simp only [identifierOverhead, partialIvReserved] at *
  omega

/-- Equal layouts have equal identifiers and partial IVs of one number. -/
theorem nonceLayout_inj {length : Nat} {id otherId partialIv otherIv : Bytes}
    (fits : id.length + identifierOverhead ≤ length)
    (otherFits : otherId.length + identifierOverhead ≤ length) (byte : length ≤ 256)
    (short : partialIv.length ≤ partialIvReserved)
    (otherShort : otherIv.length ≤ partialIvReserved) :
    nonceLayout length id partialIv = nonceLayout length otherId otherIv ↔
      id = otherId ∧ partialIv.toNat = otherIv.toNat := by
  have idRoom : id.length ≤ length - identifierOverhead := by omega
  have otherRoom : otherId.length ≤ length - identifierOverhead := by omega
  constructor
  · intro equal
    obtain ⟨lengths, bodies⟩ := List.cons.inj equal
    have sameLength : id.length = otherId.length := by
      have numbers := congrArg UInt8.toNat lengths
      simp only [UInt8.toNat_ofNat', identifierOverhead] at numbers fits otherFits
      omega
    obtain ⟨ids, ivs⟩ := List.append_inj bodies
      (by rw [length_padLeft idRoom, length_padLeft otherRoom])
    refine ⟨?_, by simpa using congrArg Bytes.toNat ivs⟩
    rw [padLeft, padLeft, sameLength] at ids
    exact List.append_cancel_left ids
  · rintro ⟨rfl, number⟩
    have ivs : padLeft partialIvReserved partialIv = padLeft partialIvReserved otherIv :=
      eq_of_toNat_eq (by rw [length_padLeft short, length_padLeft otherShort])
        (by rw [toNat_padLeft, toNat_padLeft, number])
    rw [nonceLayout, nonceLayout, ivs]

/-! ### Both stages at once -/

/-- A string cut after some of its bytes. -/
theorem exists_append {bytes : Bytes} {count : Nat} (enough : count ≤ bytes.length) :
    ∃ front back, bytes = front ++ back ∧ front.length = count :=
  ⟨bytes.take count, bytes.drop count, (List.take_append_drop count bytes).symm,
    List.length_take_of_le enough⟩

/-- Folding changes the first byte and the stretch before the last five. -/
theorem foldIdentifier_append {head : UInt8} {gap name tail id : Bytes}
    (nameLength : name.length = id.length) (tailLength : tail.length = partialIvReserved) :
    foldIdentifier ([head] ++ (gap ++ (name ++ tail))) id =
      ([head ^^^ UInt8.ofNat id.length] ++ gap) ++ (xor name id ++ tail) := by
  have lengthFolded : xorAt 0 [UInt8.ofNat id.length] ([head] ++ (gap ++ (name ++ tail))) =
      [head ^^^ UInt8.ofNat id.length] ++ (gap ++ (name ++ tail)) :=
    @xorAt_append [] [head] [UInt8.ofNat id.length] rfl _
  rw [foldIdentifier, lengthFolded, ← xorAt_append nameLength]
  simp only [List.length_append, List.append_assoc, List.length_singleton]
  congr 1
  omega

/-- The mask of the same stretches. -/
theorem nonceLayout_append {length : Nat} {gap spare id partialIv : Bytes}
    (gapLength : length - identifierOverhead - id.length = gap.length)
    (spareLength : partialIvReserved - partialIv.length = spare.length) :
    nonceLayout length id partialIv =
      [UInt8.ofNat id.length] ++ (List.replicate gap.length 0 ++
        (id ++ (List.replicate spare.length 0 ++ partialIv))) := by
  rw [nonceLayout, padLeft, padLeft, gapLength, spareLength, List.append_assoc,
    List.singleton_append]

/-- Folding an identifier into the common IV and then adding a partial IV to its last bytes is
one exclusive or with the layout. -/
theorem xorAt_foldIdentifier {common id partialIv : Bytes}
    (fits : id.length + identifierOverhead ≤ common.length)
    (short : partialIv.length ≤ partialIvReserved) :
    xorAt (common.length - partialIv.length) partialIv (foldIdentifier common id) =
      xor common (nonceLayout common.length id partialIv) := by
  -- the five stretches of the IV: length byte, gap, identifier, spare bytes, partial IV
  simp only [identifierOverhead, partialIvReserved] at fits short
  obtain ⟨first, afterFirst, rfl, firstLength⟩ := exists_append
    (show 1 ≤ common.length by omega)
  rw [List.length_append, firstLength] at fits
  obtain ⟨gap, afterGap, rfl, gapLength⟩ := exists_append
    (show afterFirst.length - 5 - id.length ≤ afterFirst.length by omega)
  rw [List.length_append] at fits gapLength
  obtain ⟨name, afterName, rfl, nameLength⟩ := exists_append
    (show id.length ≤ afterGap.length by omega)
  rw [List.length_append] at fits gapLength
  obtain ⟨spare, last, rfl, spareLength⟩ := exists_append
    (show 5 - partialIv.length ≤ afterName.length by omega)
  rw [List.length_append] at fits gapLength
  have lastLength : last.length = partialIv.length := by omega
  obtain ⟨head, rfl⟩ := List.length_eq_one_iff.mp firstLength
  have tailLength : (spare ++ last).length = partialIvReserved := by
    rw [List.length_append, partialIvReserved]
    omega
  have gapMask : ([head] ++ (gap ++ (name ++ (spare ++ last)))).length - identifierOverhead -
      id.length = gap.length := by
    simp only [List.length_append, identifierOverhead, List.length_singleton]
    omega
  have added : xorAt (([head] ++ (gap ++ (name ++ (spare ++ last)))).length - partialIv.length)
      partialIv (foldIdentifier ([head] ++ (gap ++ (name ++ (spare ++ last)))) id) =
        ([head ^^^ UInt8.ofNat id.length] ++ gap ++ xor name id ++ spare) ++
          (xor last partialIv ++ []) := by
    rw [foldIdentifier_append nameLength tailLength, ← xorAt_append lastLength]
    simp only [List.length_append, List.append_assoc, List.length_singleton, length_xor,
      List.append_nil]
    congr 1
    omega
  rw [added, nonceLayout_append gapMask (by rw [spareLength, partialIvReserved]),
    @xor_append [head] [UInt8.ofNat id.length] rfl, xor_append (by simp),
    xor_append nameLength, xor_append (by simp), xor_zeros, xor_zeros]
  simp only [List.append_assoc, List.append_nil]
  rfl

/-! ### Nonces over one common IV -/

/-- Nonces over one common IV differ when the identifiers or the numbers of the partial IVs do. -/
theorem xor_nonceLayout_inj {common id otherId partialIv otherIv : Bytes}
    (fits : id.length + identifierOverhead ≤ common.length)
    (otherFits : otherId.length + identifierOverhead ≤ common.length)
    (byte : common.length ≤ 256) (short : partialIv.length ≤ partialIvReserved)
    (otherShort : otherIv.length ≤ partialIvReserved) :
    xor common (nonceLayout common.length id partialIv) =
        xor common (nonceLayout common.length otherId otherIv) ↔
      id = otherId ∧ partialIv.toNat = otherIv.toNat := by
  rw [xor_right_inj (length_nonceLayout fits short) (length_nonceLayout otherFits otherShort),
    nonceLayout_inj fits otherFits byte short otherShort]

/-- The nonces of an entity whose identifier was folded into some IV. -/
theorem Entity.nonce_of_folded {entity : Entity} {common partialIv : Bytes}
    (folded : entity.baseIv = foldIdentifier common entity.id)
    (fits : entity.id.length + identifierOverhead ≤ common.length)
    (positive : 0 < partialIv.length) (short : partialIv.length ≤ partialIvReserved) :
    entity.nonce partialIv =
      .ok (xor common (nonceLayout common.length entity.id partialIv)) := by
  have length : entity.baseIv.length = common.length := by
    rw [folded, foldIdentifier, length_xorAt, length_xorAt]
  have permitted : ¬(partialIv.length = 0 ∨
      min partialIvCapacity entity.baseIv.length < partialIv.length) := by
    rw [length]
    simp only [identifierOverhead, partialIvReserved, partialIvCapacity] at *
    omega
  rw [Entity.nonce, if_neg permitted, length, folded, xorAt_foldIdentifier fits short]

/-! ### Nonces of derived entities -/

/-- The nonce of an identifier and a partial IV. -/
def ResolvedKeying.nonceOf (keying : ResolvedKeying) (id partialIv : Bytes) : Bytes :=
  xor keying.commonIv (nonceLayout keying.aead.nonceLength id partialIv)

theorem AeadAlgorithm.fits_of_le {algorithm : AeadAlgorithm} {length : Nat}
    (fits : length ≤ algorithm.identifierCapacity) :
    length + identifierOverhead ≤ algorithm.nonceLength := by
  have room := algorithm.le_nonceLength
  simp only [identifierCapacity, identifierOverhead] at *
  omega

theorem AeadAlgorithm.nonceLength_le_byte (algorithm : AeadAlgorithm) :
    algorithm.nonceLength ≤ 256 :=
  Nat.le_trans algorithm.nonceLength_le (by decide)

theorem ResolvedKeying.length_nonceOf {keying : ResolvedKeying} {id partialIv : Bytes}
    (fits : id.length ≤ keying.aead.identifierCapacity)
    (short : partialIv.length ≤ partialIvReserved) :
    (keying.nonceOf id partialIv).length = keying.aead.nonceLength := by
  rw [nonceOf, length_xor, length_commonIv,
    length_nonceLayout (AeadAlgorithm.fits_of_le fits) short, Nat.min_self]

/-- Nonces differ when the identifiers or the numbers of the partial IVs do. -/
theorem ResolvedKeying.nonceOf_inj {keying : ResolvedKeying}
    {id otherId partialIv otherIv : Bytes} (fits : id.length ≤ keying.aead.identifierCapacity)
    (otherFits : otherId.length ≤ keying.aead.identifierCapacity)
    (short : partialIv.length ≤ partialIvReserved)
    (otherShort : otherIv.length ≤ partialIvReserved) :
    keying.nonceOf id partialIv = keying.nonceOf otherId otherIv ↔
      id = otherId ∧ partialIv.toNat = otherIv.toNat := by
  have room := AeadAlgorithm.fits_of_le fits
  have otherRoom := AeadAlgorithm.fits_of_le otherFits
  have byte := keying.aead.nonceLength_le_byte
  rw [← length_commonIv] at room otherRoom byte
  rw [nonceOf, nonceOf, ← keying.length_commonIv,
    xor_nonceLayout_inj room otherRoom byte short otherShort]

theorem Entity.DerivedBy.nonce_eq {entity : Entity} {keying : ResolvedKeying}
    (derived : entity.DerivedBy keying) {partialIv : Bytes} (positive : 0 < partialIv.length)
    (short : partialIv.length ≤ partialIvReserved) :
    entity.nonce partialIv = .ok (keying.nonceOf entity.id partialIv) := by
  have fits := AeadAlgorithm.fits_of_le derived.id_fits
  rw [← ResolvedKeying.length_commonIv] at fits
  rw [Entity.nonce_of_folded derived.baseIv_eq fits positive short, ResolvedKeying.nonceOf,
    ResolvedKeying.length_commonIv]

end Oscore
