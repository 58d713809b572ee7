/-
This file says that no two derivations have the same purpose in bytes. Keys and
IVs of all entities of a context come out of one secret and one salt, and only
the bytes of their purpose tell them apart. These are the encoding of an array of
five items, each of which says where it ends. So they determine what is derived,
for whom, of which group, for which algorithm and how much of it, and none of
them is the beginning of another.
-/

import Oscore.Proofs.Derivation
import Oscore.Proofs.ItemReading

namespace Oscore

/-! ### What tells the parts apart -/

theorem AeadAlgorithm.identifier_inj {first second : AeadAlgorithm} :
    first.identifier = second.identifier ↔ first = second := by
  constructor
  · intro same
    have known := first.ofIdentifier_identifier
    rw [same, second.ofIdentifier_identifier] at known
    exact (Except.ok.inj known).symm
  · exact congrArg identifier

theorem Purpose.label_inj {first second : Purpose} :
    first.label = second.label ↔ first = second := by
  cases first <;> cases second <;> decide

/-- What some bytes are derived for. -/
structure DerivationTarget where
  /-- The identifier of the entity, empty for the common IV. -/
  id : Bytes
  /-- The identifier of the group, if there is one. -/
  idContext : Option Bytes
  /-- The algorithm that the bytes are for. -/
  aead : AeadAlgorithm
  /-- Whether they are a key or an IV. -/
  purpose : Purpose
  /-- How many bytes are wanted. -/
  length : Nat
  deriving DecidableEq, Repr

namespace DerivationTarget

/-- The purpose of the derivation in bytes. -/
def info (target : DerivationTarget) : Bytes :=
  derivationInfo target.id target.idContext target.aead target.purpose target.length

/-- The identifier of a group as an item, null if there is none. -/
def groupItem : Option Bytes → Cbor.Item
  | some group => .bytes group
  | none => .null

/-- The array that says what is derived. -/
def item (target : DerivationTarget) : Cbor.Item :=
  .array [.bytes target.id, groupItem target.idContext, .integer target.aead.identifier,
    .text target.purpose.label, .integer target.length]

/-- Whether all lengths are words of 64 bits, as those of byte strings in memory are. -/
structure Addressable (target : DerivationTarget) : Prop where
  id_short : target.id.length < 2 ^ 64
  idContext_short : ∀ group ∈ target.idContext, group.length < 2 ^ 64
  length_short : target.length < 2 ^ 64

variable {first second target : DerivationTarget}

theorem info_eq (target : DerivationTarget) : target.info = target.item.encode := by
  obtain ⟨id, idContext, aead, purpose, length⟩ := target
  cases idContext <;> rfl

theorem groupItem_inj {group other : Option Bytes} :
    groupItem group = groupItem other ↔ group = other := by
  cases group <;> cases other <;> simp [groupItem]

theorem item_inj : first.item = second.item ↔ first = second := by
  obtain ⟨id, idContext, aead, purpose, length⟩ := first
  obtain ⟨otherId, otherContext, otherAead, otherPurpose, otherLength⟩ := second
  simp only [item, Cbor.Item.array.injEq, Cbor.Item.bytes.injEq, Cbor.Item.integer.injEq,
    Cbor.Item.text.injEq, List.cons.injEq, and_true, groupItem_inj, AeadAlgorithm.identifier_inj,
    Purpose.label_inj, Int.ofNat_inj, mk.injEq]

/-- The array can be written and read, since every length fits its head. -/
theorem Addressable.fits (addressable : target.Addressable) (depth : Nat) :
    target.item.Fits (depth + 1) := by
  have known : -2 ^ 64 ≤ target.aead.identifier ∧ target.aead.identifier < 2 ^ 64 := by
    cases target.aead <;> decide
  have labelled : (Bytes.ofString target.purpose.label).length < 2 ^ 64 := by
    cases target.purpose <;> decide
  have group : (groupItem target.idContext).Fits depth := by
    cases present : target.idContext with
    | none => exact .null
    | some group => exact .bytes (addressable.idContext_short group present)
  have counted : ((target.length : Nat) : Int) < 2 ^ 64 := by
    exact_mod_cast addressable.length_short
  refine .array (by simp) ?_
  simp only [List.forall_mem_cons]
  exact ⟨.bytes addressable.id_short, group, .integer known.1 known.2, .text labelled,
    .integer (by omega) counted, fun _ absent => absurd absent List.not_mem_nil⟩

/-- The purpose of a derivation, whatever follows it, is read as the array of its five parts. So
purposes in bytes are the same only for the same derivation, and none is the beginning of
another. -/
theorem info_separates :
    (∀ target : DerivationTarget, target.Addressable → ∀ rest,
      Cbor.Item.read? (target.info ++ rest) = some (target.item, rest)) ∧
      ∀ first second : DerivationTarget, first.Addressable → second.Addressable →
        (first.info = second.info ↔ first = second) ∧
        (first.info <+: second.info → first.info = second.info) := by
  refine ⟨?_, ?_⟩
  · intro target addressable rest
    rw [info_eq]
    exact Cbor.readNested_encode (addressable.fits _) rest
  · intro first second firstAddressable secondAddressable
    have delimited {firstRest secondRest : Bytes}
        (same : first.info ++ firstRest = second.info ++ secondRest) : first = second := by
      rw [info_eq, info_eq] at same
      exact item_inj.mp (Cbor.Item.encode_append_inj (firstAddressable.fits 0)
        (secondAddressable.fits 0) same).1
    refine ⟨⟨fun same => ?_, congrArg info⟩, ?_⟩
    · exact delimited (congrArg (· ++ []) same)
    · rintro ⟨rest, longer⟩
      rw [← List.append_nil second.info] at longer
      rw [delimited longer]

/-- A missing group is not an empty one, bytes do not move between the identifiers, and an
identifier of 255 bytes is told from one of 256, although their heads differ in length and the
shorter purpose could be continued to the length of the other. -/
theorem info_separates_neighbours :
    let key (id : Bytes) (group : Option Bytes) : DerivationTarget :=
      ⟨id, group, .aesCcm8, .key, 16⟩
    (key [1] none).info ≠ (key [1] (some [])).info ∧
      (key [1, 2] (some [3])).info ≠ (key [1] (some [2, 3])).info ∧
      Cbor.Item.read? ((key [] none).info ++ (key [1] none).info) =
        some ((key [] none).item, (key [1] none).info) ∧
      ¬(key (List.replicate 255 0) none).info <+: (key (List.replicate 256 0) none).info := by
  intro key
  have short (id : Bytes) (group : Option Bytes) (idShort : id.length < 2 ^ 64)
      (groupShort : ∀ other ∈ group, other.length < 2 ^ 64) : (key id group).Addressable :=
    ⟨idShort, groupShort, (by decide : 16 < 2 ^ 64)⟩
  have none (id : Bytes) (idShort : id.length < 2 ^ 64) : (key id none).Addressable :=
    short id none idShort (by decide)
  obtain ⟨reads, separates⟩ := info_separates
  refine ⟨?_, ?_, reads _ (none [] (by decide)) _, ?_⟩
  · rw [ne_eq,
      (separates _ _ (none [1] (by decide)) (short [1] (some []) (by decide) (by decide))).1]
    decide
  · rw [ne_eq, (separates _ _ (short [1, 2] (some [3]) (by decide) (by decide))
      (short [1] (some [2, 3]) (by decide) (by decide))).1]
    decide
  · intro begins
    obtain ⟨same, whole⟩ := separates _ _
      (none (List.replicate 255 0) (by rw [List.length_replicate]; decide))
      (none (List.replicate 256 0) (by rw [List.length_replicate]; decide))
    have ids := congrArg (fun target => target.id.length) (same.mp (whole begins))
    dsimp only [key] at ids
    rw [List.length_replicate, List.length_replicate] at ids
    exact absurd ids (by decide)

end DerivationTarget

end Oscore
