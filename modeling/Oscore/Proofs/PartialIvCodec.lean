/-
This file says which byte strings are the partial IVs of numbers. The partial IV
of a number is its shortest spelling, in which no zero stands before another byte.
A reader accepts every string of one to five bytes, and writing the number that
was read leaves out the zeros that were not needed. So numbers below `2 ^ 40` and
the shortest strings of one to five bytes correspond, and larger numbers have no
partial IV that is accepted anywhere.

Shortest spellings are ordered as their numbers are: by length, and among those of
one length byte by byte.
-/

import Mathlib.Data.List.Shortlex
import Mathlib.Data.Set.Function
import Oscore.Entity
import Oscore.Proofs.ByteNumbers

namespace Oscore

namespace Bytes

/-! ### Strings without leading zeros -/

/-- A string without the zeros before its first other byte. The last byte stays, whatever it
is. -/
def withoutZeros : Bytes → Bytes
  | [] => []
  | byte :: rest => if byte = 0 ∧ rest ≠ [] then withoutZeros rest else byte :: rest

/-- Whether a string writes a number and no zero of it can be left out. -/
def Minimal (bytes : Bytes) : Prop := bytes ≠ [] ∧ (bytes.head? ≠ some 0 ∨ bytes = [0])

theorem minimal_withoutZeros {bytes : Bytes} (something : bytes ≠ []) :
    (withoutZeros bytes).Minimal := by
  induction bytes with
  | nil => exact absurd rfl something
  | cons byte rest inductionHypothesis =>
    rw [withoutZeros]
    split
    · rename_i zero
      exact inductionHypothesis zero.2
    · rename_i kept
      refine ⟨List.cons_ne_nil _ _, ?_⟩
      by_cases zero : byte = 0
      · have last : rest = [] := by
          by_contra more
          exact kept ⟨zero, more⟩
        exact Or.inr (by rw [zero, last])
      · exact Or.inl fun first => zero (Option.some.inj first)

@[simp] theorem toNat_withoutZeros (bytes : Bytes) : toNat (withoutZeros bytes) = toNat bytes := by
  induction bytes with
  | nil => rfl
  | cons byte rest inductionHypothesis =>
    rw [withoutZeros]
    split
    · rename_i zero
      rw [inductionHypothesis, toNat_cons, zero.1, UInt8.toNat_zero, Nat.zero_mul, Nat.zero_add]
    · rfl

/-- A minimal string is as long as the shortest spelling of its number. -/
theorem Minimal.width_toNat {bytes : Bytes} (minimal : bytes.Minimal) :
    width (toNat bytes) = bytes.length := by
  obtain ⟨something, noZero | rfl⟩ := minimal
  · obtain ⟨byte, rest, rfl⟩ := List.exists_cons_of_ne_nil something
    have positive : 0 < byte.toNat := by
      refine Nat.pos_of_ne_zero fun zero => noZero ?_
      rw [List.head?_cons, UInt8.toNat_inj.mp (zero.trans UInt8.toNat_zero.symm)]
    -- the first byte counts, so the rest alone does not have room for the number
    have large : 256 ^ rest.length ≤ toNat (byte :: rest) := by
      rw [toNat_cons]
      exact Nat.le_add_right_of_le (Nat.le_mul_of_pos_left _ positive)
    have longer : rest.length < width (toNat (byte :: rest)) :=
      (Nat.pow_lt_pow_iff_right (by decide)).mp (Nat.lt_of_le_of_lt large (lt_pow_width _))
    have enough : width (toNat (byte :: rest)) ≤ (byte :: rest).length :=
      width_le (Nat.succ_pos _) (toNat_lt _)
    rw [List.length_cons] at enough ⊢
    omega
  · decide

/-- A minimal string is the shortest spelling of its number. -/
theorem Minimal.shortest_toNat {bytes : Bytes} (minimal : bytes.Minimal) :
    shortest (toNat bytes) = bytes :=
  eq_of_toNat_eq (by rw [length_shortest, minimal.width_toNat]) (toNat_shortest _)

/-- The shortest spelling of the number of any string is that string without its leading zeros. -/
theorem shortest_toNat {bytes : Bytes} (something : bytes ≠ []) :
    shortest (toNat bytes) = withoutZeros bytes := by
  rw [← toNat_withoutZeros, (minimal_withoutZeros something).shortest_toNat]

theorem shortest_ne_nil (number : Nat) : shortest number ≠ [] :=
  List.ne_nil_of_length_pos (by rw [length_shortest]; exact width_pos number)

theorem minimal_shortest (number : Nat) : (shortest number).Minimal := by
  have same := shortest_toNat (shortest_ne_nil number)
  rw [toNat_shortest] at same
  rw [same]
  exact minimal_withoutZeros (shortest_ne_nil number)

/-- The shortest spelling is a wider one without its leading zeros. -/
theorem shortest_eq_withoutZeros {width number : Nat} (positive : 0 < width)
    (small : number < 256 ^ width) : shortest number = withoutZeros (bigEndian width number) := by
  have something : bigEndian width number ≠ [] :=
    List.ne_nil_of_length_pos (by rw [length_bigEndian]; exact positive)
  rw [← shortest_toNat something, toNat_bigEndian, Nat.mod_eq_of_lt small]

/-! ### Order -/

/-- A number is compared by its quotient first and then by its remainder. -/
theorem quotient_remainder_lt_iff {weight quotient remainder otherQuotient otherRemainder : Nat}
    (small : remainder < weight) (otherSmall : otherRemainder < weight) :
    quotient * weight + remainder < otherQuotient * weight + otherRemainder ↔
      quotient < otherQuotient ∨ quotient = otherQuotient ∧ remainder < otherRemainder := by
  rcases Nat.lt_trichotomy quotient otherQuotient with smaller | rfl | larger
  · have room := Nat.mul_le_mul_right weight (Nat.succ_le_of_lt smaller)
    rw [Nat.succ_mul] at room
    exact iff_of_true (by omega) (Or.inl smaller)
  · simp
  · have room := Nat.mul_le_mul_right weight (Nat.succ_le_of_lt larger)
    rw [Nat.succ_mul] at room
    exact iff_of_false (by omega) (by omega)

/-- Strings of one length are ordered as their numbers are. -/
theorem lex_iff_toNat_lt {first second : Bytes} (length : first.length = second.length) :
    List.Lex (· < ·) first second ↔ toNat first < toNat second := by
  induction first generalizing second with
  | nil =>
    rw [List.length_eq_zero_iff.mp length.symm]
    simp
  | cons byte rest inductionHypothesis =>
    obtain ⟨other, tail, rfl⟩ := List.exists_cons_of_length_eq_add_one length.symm
    have sameLength : rest.length = tail.length := Nat.succ.inj length
    have small := toNat_lt rest
    rw [sameLength] at small
    rw [List.cons_lex_cons_iff, inductionHypothesis sameLength, toNat_cons, toNat_cons, sameLength,
      quotient_remainder_lt_iff small (toNat_lt tail), UInt8.lt_iff_toNat_lt, ← UInt8.toNat_inj]

/-- A number with a shorter spelling is smaller. -/
theorem lt_of_width_lt {first second : Nat} (shorter : width first < width second) :
    first < second := by
  by_contra notSmaller
  have small : second < 256 ^ width first :=
    Nat.lt_of_le_of_lt (Nat.not_lt.mp notSmaller) (lt_pow_width first)
  exact Nat.not_le.mpr shorter (width_le (width_pos first) small)

/-- Shortest spellings are ordered as their numbers are. -/
theorem shortlex_shortest_iff {first second : Nat} :
    List.Shortlex (· < ·) (shortest first) (shortest second) ↔ first < second := by
  rw [List.shortlex_def, length_shortest, length_shortest]
  rcases Nat.lt_trichotomy (width first) (width second) with shorter | same | longer
  · exact iff_of_true (Or.inl shorter) (lt_of_width_lt shorter)
  · rw [lex_iff_toNat_lt (by rw [length_shortest, length_shortest, same]), toNat_shortest,
      toNat_shortest, same]
    simp
  · refine iff_of_false ?_ (Nat.lt_asymm (lt_of_width_lt longer))
    rintro (shorter | ⟨same, -⟩)
    · exact Nat.lt_asymm longer shorter
    · exact Nat.ne_of_gt longer same

end Bytes

/-! ### Writing and reading partial IVs -/

namespace PartialIv

open Bytes

theorem length_encode_pos (sequence : Nat) : 0 < (encode sequence).length := by
  rw [encode, length_shortest]
  exact width_pos sequence

theorem length_encode_le {sequence : Nat} (small : sequence ≤ sequenceCeiling) :
    (encode sequence).length ≤ partialIvReserved := by
  rw [encode, length_shortest]
  have bound : sequence < 256 ^ partialIvReserved := Nat.lt_of_le_of_lt small (by decide)
  exact width_le (by decide) bound

@[simp] theorem toNat_encode (sequence : Nat) : (encode sequence).toNat = sequence :=
  toNat_shortest sequence

theorem allowed_encode {sequence : Nat} (small : sequence ≤ sequenceCeiling) :
    allowed (encode sequence) :=
  allowed_iff.mpr ⟨length_encode_pos sequence, length_encode_le small⟩

theorem decode_of_allowed {partialIv : Bytes} (permitted : allowed partialIv) :
    decode partialIv = .ok partialIv.toNat := if_pos permitted

theorem decode_of_not_allowed {partialIv : Bytes} (forbidden : ¬allowed partialIv) :
    decode partialIv = .error (.partialIvLength partialIv.length) := if_neg forbidden

theorem decode_eq_ok {partialIv : Bytes} {sequence : Nat} :
    decode partialIv = .ok sequence ↔ allowed partialIv ∧ partialIv.toNat = sequence := by
  by_cases permitted : allowed partialIv
  · rw [decode_of_allowed permitted, Except.ok.injEq, and_iff_right permitted]
  · rw [decode_of_not_allowed permitted]
    simp only [reduceCtorEq, permitted, false_and]

/-- A number comes out of its partial IV again. -/
theorem decode_encode {sequence : Nat} (small : sequence ≤ sequenceCeiling) :
    decode (encode sequence) = .ok sequence :=
  decode_eq_ok.mpr ⟨allowed_encode small, toNat_encode sequence⟩

/-- The partial IV of a number is the shortest that decodes to it. -/
theorem length_encode_le_of_decode {sequence : Nat} {partialIv : Bytes}
    (decoded : decode partialIv = .ok sequence) : (encode sequence).length ≤ partialIv.length := by
  obtain ⟨permitted, rfl⟩ := decode_eq_ok.mp decoded
  rw [encode, length_shortest]
  exact width_le (allowed_iff.mp permitted).1 (toNat_lt partialIv)

end PartialIv

/-- No nonce is made of a partial IV that messages may not carry. -/
theorem Entity.nonce_of_not_allowed {entity : Entity} {partialIv : Bytes}
    (forbidden : ¬PartialIv.allowed partialIv) :
    entity.nonce partialIv = .error (.partialIvLength partialIv.length) := by
  rw [PartialIv.allowed_iff] at forbidden
  rw [nonce, if_pos]
  omega

/-! ### Numbers and their partial IVs -/

namespace PartialIv

open Bytes

/-- Numbers of more than 40 bits have no partial IV that messages may carry. -/
theorem not_allowed_encode {sequence : Nat} (large : 2 ^ 40 ≤ sequence) :
    ¬allowed (encode sequence) := by
  intro permitted
  have bound := toNat_lt (encode sequence)
  rw [toNat_encode] at bound
  have room : 256 ^ (encode sequence).length ≤ 256 ^ 5 :=
    Nat.pow_le_pow_right (by decide) (allowed_iff.mp permitted).2
  omega

/-- The partial IVs of the numbers below `2 ^ 40`: one to five bytes that do not begin with a zero,
or one zero. -/
def shortestForms : Set Bytes :=
  {partialIv | 1 ≤ partialIv.length ∧ partialIv.length ≤ 5 ∧ partialIv.head? ≠ some 0} ∪ {[0]}

theorem mem_shortestForms {partialIv : Bytes} :
    partialIv ∈ shortestForms ↔ allowed partialIv ∧ partialIv.Minimal := by
  rw [allowed_iff, Bytes.Minimal, ← List.length_pos_iff]
  constructor
  · rintro (⟨positive, short, noZero⟩ | rfl)
    · exact ⟨⟨positive, short⟩, positive, Or.inl noZero⟩
    · decide
  · rintro ⟨⟨positive, short⟩, -, noZero | rfl⟩
    · exact Or.inl ⟨positive, short, noZero⟩
    · exact Or.inr rfl

theorem bijOn_encode : Set.BijOn encode {sequence | sequence < 2 ^ 40} shortestForms := by
  refine ⟨?_, ?_, ?_⟩
  · intro sequence small
    exact mem_shortestForms.mpr
      ⟨allowed_encode (Nat.le_pred_of_lt small), minimal_shortest sequence⟩
  · intro sequence _ other _ same
    rw [← toNat_encode sequence, same, toNat_encode]
  · intro partialIv member
    obtain ⟨permitted, minimal⟩ := mem_shortestForms.mp member
    refine ⟨partialIv.toNat, ?_, minimal.shortest_toNat⟩
    refine Nat.lt_of_lt_of_le (toNat_lt partialIv) ?_
    exact Nat.pow_le_pow_right (by decide : 0 < 256) (allowed_iff.mp permitted).2

/-- Numbers below `2 ^ 40` and the shortest strings of one to five bytes correspond, and reading is
the inverse of writing. Exactly the strings of one to five bytes are read, and what is written for
the number that was read is the string without its superfluous zeros. The partial IV of a larger
number is accepted neither by a reader nor for a nonce, and partial IVs are ordered as their numbers
are. What is written is the spelling as a word of 64 bits without its superfluous zeros. -/
theorem encode_corresponds :
    Set.BijOn encode {sequence | sequence < 2 ^ 40} shortestForms ∧
      (∀ sequence < 2 ^ 40, decode (encode sequence) = .ok sequence) ∧
      (∀ partialIv, (∃ sequence, decode partialIv = .ok sequence) ↔
        1 ≤ partialIv.length ∧ partialIv.length ≤ 5) ∧
      (∀ partialIv sequence, decode partialIv = .ok sequence →
        sequence < 2 ^ 40 ∧ encode sequence = partialIv.withoutZeros) ∧
      (∀ sequence, 2 ^ 40 ≤ sequence →
        decode (encode sequence) = .error (.partialIvLength (encode sequence).length) ∧
        ∀ entity : Entity, entity.nonce (encode sequence) =
          .error (.partialIvLength (encode sequence).length)) ∧
      (∀ first second, first < second ↔
        List.Shortlex (· < ·) (encode first) (encode second)) ∧
      ∀ sequence < 2 ^ 64, encode sequence = (bigEndian 8 sequence).withoutZeros := by
  refine ⟨bijOn_encode, ?_, ?_, ?_, ?_, ?_, ?_⟩
  · intro sequence small
    exact decode_encode (Nat.le_pred_of_lt small)
  · intro partialIv
    simp only [decode_eq_ok, exists_and_left, exists_eq', and_true]
    exact allowed_iff
  · intro partialIv sequence decoded
    obtain ⟨permitted, rfl⟩ := decode_eq_ok.mp decoded
    obtain ⟨positive, short⟩ := allowed_iff.mp permitted
    refine ⟨?_, shortest_toNat (List.ne_nil_of_length_pos positive)⟩
    exact Nat.lt_of_lt_of_le (toNat_lt partialIv) (Nat.pow_le_pow_right (by decide) short)
  · intro sequence large
    exact ⟨decode_of_not_allowed (not_allowed_encode large),
      fun entity => Entity.nonce_of_not_allowed (not_allowed_encode large)⟩
  · intro first second
    exact shortlex_shortest_iff.symm
  · intro sequence small
    exact shortest_eq_withoutZeros (by decide) small

/-- The largest number of five bytes has a partial IV and the next number has none. Zeros before a
number and before zero itself are read and not written again, and a spelling that begins with a
smaller byte is larger if it is longer. -/
theorem encode_corresponds_extremes :
    encode (2 ^ 40 - 1) ∈ shortestForms ∧
      decode (encode (2 ^ 40 - 1)) = .ok (2 ^ 40 - 1) ∧
      (decode [0, 0, 1, 0] = .ok 256 ∧ encode 256 = [1, 0]) ∧
      (decode [0, 0, 0] = .ok 0 ∧ encode 0 = [0]) ∧
      (¬∃ sequence, decode [0, 0, 0, 0, 0, 1] = .ok sequence) ∧
      decode (encode (2 ^ 40)) = .error (.partialIvLength 6) ∧
      (∀ entity : Entity, entity.nonce (encode (2 ^ 64 - 1)) = .error (.partialIvLength 8)) ∧
      List.Shortlex (· < ·) (encode 255) (encode 256) ∧
      encode (2 ^ 64 - 1) = [255, 255, 255, 255, 255, 255, 255, 255] := by
  obtain ⟨corresponds, inverse, accepted, rewritten, refused, ordered, spelled⟩ :=
    encode_corresponds
  have last : (2 ^ 40 - 1 : Nat) ∈ {sequence | sequence < 2 ^ 40} := by decide
  refine ⟨corresponds.mapsTo last, inverse _ (by decide), ⟨rfl, ?_⟩, ⟨rfl, ?_⟩, ?_, ?_, ?_,
    (ordered 255 256).mp (by decide), ?_⟩
  · exact (rewritten [0, 0, 1, 0] 256 rfl).2
  · exact (rewritten [0, 0, 0] 0 rfl).2
  · rw [accepted]
    decide
  · exact (refused (2 ^ 40) (Nat.le_refl _)).1
  · exact (refused (2 ^ 64 - 1) (by decide)).2
  · rw [spelled (2 ^ 64 - 1) (by decide)]
    decide

end PartialIv

end Oscore
