/-
This file proves the arithmetic of byte strings: the number that a string
writes determines the string among those of its length, the shortest spelling
reads back, and exclusive or with a fixed mask loses nothing. Everything that
is said later about distinct nonces is one of these facts.
-/

import Mathlib.Algebra.Group.Nat.Defs
import Oscore.Bytes

namespace Oscore.Bytes

/-! ### The number of a string -/

theorem foldl_toNat (bytes : Bytes) (start : Nat) :
    bytes.foldl (fun total byte => total * 256 + byte.toNat) start =
      start * 256 ^ bytes.length + toNat bytes := by
  induction bytes generalizing start with
  | nil => simp [toNat]
  | cons byte rest inductionHypothesis =>
    have whole : toNat (byte :: rest) = byte.toNat * 256 ^ rest.length + toNat rest := by
      rw [toNat, List.foldl_cons, inductionHypothesis, Nat.zero_mul, Nat.zero_add]
    rw [List.foldl_cons, inductionHypothesis, whole, List.length_cons, Nat.pow_succ,
      Nat.add_mul, Nat.add_assoc, Nat.mul_assoc, Nat.mul_comm 256]

@[simp] theorem toNat_nil : toNat [] = 0 := rfl

theorem toNat_append (front back : Bytes) :
    toNat (front ++ back) = toNat front * 256 ^ back.length + toNat back := by
  rw [toNat, List.foldl_append, foldl_toNat back]
  rfl

theorem toNat_cons (byte : UInt8) (rest : Bytes) :
    toNat (byte :: rest) = byte.toNat * 256 ^ rest.length + toNat rest := by
  have front : toNat [byte] = byte.toNat := by simp [toNat]
  rw [← List.singleton_append, toNat_append, front]

theorem toNat_lt (bytes : Bytes) : toNat bytes < 256 ^ bytes.length := by
  induction bytes with
  | nil => exact Nat.one_pos
  | cons byte rest inductionHypothesis =>
    have digit : byte.toNat + 1 ≤ 256 := byte.toNat_lt
    have room := Nat.mul_le_mul_right (256 ^ rest.length) digit
    rw [Nat.add_mul, Nat.one_mul] at room
    rw [toNat_cons, List.length_cons, Nat.pow_succ, Nat.mul_comm _ 256]
    omega

/-- Two strings of one length that write the same number are the same. -/
theorem eq_of_toNat_eq {first second : Bytes} (length : first.length = second.length)
    (number : toNat first = toNat second) : first = second := by
  induction first generalizing second with
  | nil => exact (List.length_eq_zero_iff.mp length.symm).symm
  | cons byte rest inductionHypothesis =>
    obtain ⟨other, tail, rfl⟩ := List.exists_cons_of_length_eq_add_one length.symm
    have sameLength : rest.length = tail.length := Nat.succ.inj length
    rw [toNat_cons, toNat_cons, sameLength] at number
    have small := toNat_lt rest
    rw [sameLength] at small
    -- the first byte is the quotient by the weight of the rest, the rest the remainder
    have digits := congrArg (· / 256 ^ tail.length) number
    have rests := congrArg (· % 256 ^ tail.length) number
    simp only [Nat.mul_add_mod_self_right, Nat.mod_eq_of_lt small,
      Nat.mod_eq_of_lt (toNat_lt tail)] at rests
    simp only [Nat.mul_comm _ (256 ^ tail.length),
      Nat.mul_add_div (Nat.pow_pos (by decide : 0 < 256)), Nat.div_eq_of_lt small,
      Nat.div_eq_of_lt (toNat_lt tail), Nat.add_zero] at digits
    rw [UInt8.toNat_inj.mp digits, inductionHypothesis sameLength rests]

theorem toNat_zeros (count : Nat) : toNat (List.replicate count 0) = 0 := by
  induction count with
  | zero => rfl
  | succ count inductionHypothesis =>
    rw [List.replicate_succ, toNat_cons, inductionHypothesis]
    simp

/-- Leading zeros do not count. -/
@[simp] theorem toNat_padLeft (width : Nat) (bytes : Bytes) :
    toNat (padLeft width bytes) = toNat bytes := by
  rw [padLeft, toNat_append, toNat_zeros, Nat.zero_mul, Nat.zero_add]

/-! ### The spelling of a number -/

theorem toNat_bigEndian (width number : Nat) :
    toNat (bigEndian width number) = number % 256 ^ width := by
  induction width with
  | zero => simp [bigEndian, Nat.mod_one]
  | succ width inductionHypothesis =>
    have weight : 2 ^ (8 * width) = 256 ^ width := by rw [Nat.pow_mul]
    have byte : (UInt8.ofNat (number >>> (8 * width))).toNat = number / 256 ^ width % 256 := by
      rw [UInt8.toNat_ofNat', Nat.shiftRight_eq_div_pow, weight]
    rw [bigEndian, toNat_cons, length_bigEndian, inductionHypothesis, byte, Nat.pow_succ,
      Nat.mod_mul, Nat.mul_comm, Nat.add_comm]

theorem lt_pow_width (number : Nat) : number < 256 ^ width number := by
  have weight : 256 ^ width number = 2 ^ (8 * width number) := by rw [Nat.pow_mul]
  rw [weight]
  refine Nat.lt_of_lt_of_le Nat.lt_log2_self (Nat.pow_le_pow_right (by decide) ?_)
  rw [width]
  omega

/-- The shortest spelling of a number reads back. -/
@[simp] theorem toNat_shortest (number : Nat) : toNat (shortest number) = number := by
  rw [shortest, toNat_bigEndian, Nat.mod_eq_of_lt (lt_pow_width number)]

@[simp] theorem length_shortest (number : Nat) : (shortest number).length = width number := by
  rw [shortest, length_bigEndian]

theorem width_pos (number : Nat) : 0 < width number := Nat.succ_pos _

theorem width_le {number bound : Nat} (positive : 0 < bound) (small : number < 256 ^ bound) :
    width number ≤ bound := by
  have weight : 256 ^ bound = 2 ^ (8 * bound) := by rw [Nat.pow_mul]
  rw [weight] at small
  by_cases zero : number = 0
  · rw [zero]
    exact positive
  · have bits := (Nat.log2_lt zero).mpr small
    rw [width]
    omega

/-! ### Exclusive or -/

theorem xor_append {front frontMask : Bytes} (length : front.length = frontMask.length)
    (back backMask : Bytes) :
    xor (front ++ back) (frontMask ++ backMask) = xor front frontMask ++ xor back backMask :=
  List.zipWith_append length

theorem xor_comm (left right : Bytes) : xor left right = xor right left :=
  List.zipWith_comm_of_comm UInt8.xor_comm

/-- Zeros change nothing. -/
theorem xor_zeros (bytes : Bytes) : xor bytes (List.replicate bytes.length 0) = bytes := by
  induction bytes with
  | nil => rfl
  | cons byte rest inductionHypothesis =>
    show (byte ^^^ 0) :: xor rest (List.replicate rest.length 0) = byte :: rest
    rw [inductionHypothesis, UInt8.xor_zero]

/-- A string can be recovered from its sum with a mask of its length. -/
theorem xor_right_inj {mask first second : Bytes} (firstLength : first.length = mask.length)
    (secondLength : second.length = mask.length) :
    xor mask first = xor mask second ↔ first = second := by
  constructor
  · intro equal
    rw [xor_comm mask, xor_comm mask] at equal
    rw [← xor_xor_cancel (Nat.le_of_eq firstLength), equal,
      xor_xor_cancel (Nat.le_of_eq secondLength)]
  · intro equal
    rw [equal]

/-- A patch changes the bytes it covers and no others. -/
theorem xorAt_append {front covered patch : Bytes} (length : covered.length = patch.length)
    (back : Bytes) :
    xorAt front.length patch (front ++ (covered ++ back)) =
      front ++ (xor covered patch ++ back) := by
  have after : (front ++ (covered ++ back)).drop (front.length + patch.length) = back := by
    rw [← length, ← List.append_assoc, ← List.length_append, List.drop_left]
  have inside : xor patch (covered ++ back) = xor covered patch := by
    rw [xor_comm, xor, ← List.append_nil patch, List.zipWith_append (by simpa using length)]
    simp [xor]
  rw [xorAt, List.take_left, List.drop_left, after, inside]

end Oscore.Bytes
