/-
This file fixes how the library writes byte strings and numbers.

A byte string is a list of bytes. Numbers are written in a stated width, most
or least significant byte first, or in the fewest bytes that hold them. The
small laws beside the definitions say how long each spelling is; everything
that is later said about nonces, keys and tags rests on those lengths.
-/

namespace Oscore

/-- A byte string. -/
abbrev Bytes := List UInt8

namespace Bytes

/-! ### Numbers as bytes -/

/-- The low `width` bytes of a number, most significant first. -/
def bigEndian : Nat → Nat → Bytes
  | 0, _ => []
  | width + 1, number => UInt8.ofNat (number >>> (8 * width)) :: bigEndian width number

/-- The low `width` bytes of a number, least significant first. -/
def littleEndian : Nat → Nat → Bytes
  | 0, _ => []
  | width + 1, number => UInt8.ofNat number :: littleEndian width (number >>> 8)

/-- The number of bytes that hold a number, one for zero. -/
def width (number : Nat) : Nat := number.log2 / 8 + 1

/-- A number in the fewest bytes, most significant first; zero takes one byte. -/
def shortest (number : Nat) : Bytes := bigEndian (width number) number

/-- The number that a byte string writes, most significant byte first. -/
def toNat (bytes : Bytes) : Nat :=
  bytes.foldl (fun total byte => total * 256 + byte.toNat) 0

/-- The number that a byte string writes, least significant byte first. -/
def toNatReversed (bytes : Bytes) : Nat :=
  bytes.foldr (fun byte total => total * 256 + byte.toNat) 0

@[simp] theorem length_bigEndian (width number : Nat) :
    (bigEndian width number).length = width := by
  induction width with
  | zero => rfl
  | succ width inductionHypothesis => simp [bigEndian, inductionHypothesis]

@[simp] theorem length_littleEndian (width number : Nat) :
    (littleEndian width number).length = width := by
  induction width generalizing number with
  | zero => rfl
  | succ width inductionHypothesis => simp [littleEndian, inductionHypothesis]

/-! ### Cutting and joining -/

/-- Byte by byte exclusive or; the longer string loses its end. -/
def xor (left right : Bytes) : Bytes := List.zipWith (· ^^^ ·) left right

/-- A string with a patch exclusive-ored into the bytes from `offset` on. -/
def xorAt (offset : Nat) (patch bytes : Bytes) : Bytes :=
  bytes.take offset ++ (xor patch (bytes.drop offset) ++ bytes.drop (offset + patch.length))

/-- A string preceded by as many zero bytes as bring it to `width`. -/
def padLeft (width : Nat) (bytes : Bytes) : Bytes :=
  List.replicate (width - bytes.length) 0 ++ bytes

/-- The first `count` bytes and the rest, if there are that many. -/
def split? (count : Nat) (bytes : Bytes) : Option (Bytes × Bytes) :=
  let front := bytes.take count
  if front.length = count then some (front, bytes.drop count) else none

/-- A string followed by as many zero bytes as bring its length to a multiple of `size`. -/
def padToMultiple (size : Nat) (bytes : Bytes) : Bytes :=
  bytes ++ List.replicate ((size - bytes.length % size) % size) 0

/-- The first `count` pieces of `size` bytes each. -/
def pieces (size : Nat) : Nat → Bytes → List Bytes
  | 0, _ => []
  | count + 1, bytes => bytes.take size :: pieces size count (bytes.drop size)

/-- A string cut into pieces of `size` bytes; the last piece may be shorter. -/
def chunks (size : Nat) (bytes : Bytes) : List Bytes :=
  pieces size ((bytes.length + size - 1) / size) bytes

/-- The first `length` bytes of the blocks of `size` bytes that `block` numbers from zero. -/
def stream (size : Nat) (block : Nat → Bytes) (length : Nat) : Bytes :=
  ((List.range ((length + size - 1) / size)).flatMap block).take length

/-- A stream of full blocks is as long as was asked for. -/
theorem length_stream {size : Nat} {block : Nat → Bytes} (positive : 0 < size)
    (full : ∀ index, (block index).length = size) (length : Nat) :
    (stream size block length).length = length := by
  have enough : length ≤ (length + size - 1) / size * size := by
    have split := Nat.div_add_mod (length + size - 1) size
    have small := Nat.mod_lt (length + size - 1) positive
    rw [Nat.mul_comm] at split
    omega
  simp only [stream, List.length_take, List.length_flatMap, full, List.map_const',
    List.sum_replicate_nat, List.length_range]
  omega

@[simp] theorem length_xor (left right : Bytes) :
    (xor left right).length = min left.length right.length := by
  simp [xor]

/-- Adding the same mask twice changes nothing, if the mask is long enough. -/
theorem xor_xor_cancel {bytes mask : Bytes} (covered : bytes.length ≤ mask.length) :
    xor (xor bytes mask) mask = bytes := by
  induction bytes generalizing mask with
  | nil => rfl
  | cons byte rest inductionHypothesis =>
    cases mask with
    | nil => exact absurd covered (Nat.not_succ_le_zero _)
    | cons first mask =>
      have tail := inductionHypothesis (Nat.le_of_succ_le_succ covered)
      simp only [xor, List.zipWith_cons_cons] at tail ⊢
      rw [tail, UInt8.xor_assoc, UInt8.xor_self, UInt8.xor_zero]

@[simp] theorem length_xorAt (offset : Nat) (patch bytes : Bytes) :
    (xorAt offset patch bytes).length = bytes.length := by
  simp only [xorAt, List.length_append, List.length_take, length_xor, List.length_drop]
  omega

theorem length_padLeft {width : Nat} {bytes : Bytes} (short : bytes.length ≤ width) :
    (padLeft width bytes).length = width := by
  simp only [padLeft, List.length_append, List.length_replicate]
  exact Nat.sub_add_cancel short

/-! ### Text -/

/-- The UTF-8 bytes of a text. -/
def ofString (text : String) : Bytes := text.toUTF8.data.toList

/-- The text of a UTF-8 byte string, if the bytes are well formed. -/
def toString? (bytes : Bytes) : Option String := String.fromUTF8? ⟨bytes.toArray⟩

/-- The two lower-case hexadecimal digits of a byte. -/
def hexadecimal (byte : UInt8) : String :=
  String.ofList [Nat.digitChar (byte.toNat / 16), Nat.digitChar (byte.toNat % 16)]

/-- The hexadecimal digits of a byte string. -/
def toHexadecimal (bytes : Bytes) : String := String.join (bytes.map hexadecimal)

/-- The value of a hexadecimal digit in either case. -/
def digitValue? (digit : Char) : Option Nat :=
  if digit.isDigit then some (digit.toNat - 48)
  else if 'a' ≤ digit ∧ digit ≤ 'f' then some (digit.toNat - 87)
  else if 'A' ≤ digit ∧ digit ≤ 'F' then some (digit.toNat - 55)
  else none

/-- The bytes that pairs of hexadecimal digits write. -/
def ofDigits? : List Char → Option Bytes
  | [] => some []
  | [_] => none
  | high :: low :: rest =>
    match digitValue? high, digitValue? low, ofDigits? rest with
    | some high, some low, some bytes => some (UInt8.ofNat (high * 16 + low) :: bytes)
    | _, _, _ => none

/-- The bytes that a text of hexadecimal digits writes. -/
def ofHexadecimal? (text : String) : Option Bytes := ofDigits? text.toList

/-- A byte string as a bracketed list of hexadecimal pairs, such as `[0a, ff]`. -/
def listing (bytes : Bytes) : String :=
  "[" ++ String.intercalate ", " (bytes.map hexadecimal) ++ "]"

end Bytes

end Oscore
