/-
This file computes SHA-256 and SHA-512.

The two functions are one: they differ in the width of a word, in the rotation
amounts, and in how many rounds they make. A `Profile` holds these differences.
The SHA-256 constants are the upper halves of the first SHA-512 constants.
-/

import Oscore.Bytes

namespace Oscore.Sha2

/-! ### Profiles -/

/-- The eight words that a hash function keeps between blocks. -/
structure State (width : Nat) where
  a : BitVec width
  b : BitVec width
  c : BitVec width
  d : BitVec width
  e : BitVec width
  f : BitVec width
  g : BitVec width
  h : BitVec width

/-- Three amounts by which a word is rotated or shifted. -/
structure Amounts where
  first : Nat
  second : Nat
  third : Nat

/-- What distinguishes the members of the family. -/
structure Profile (width : Nat) where
  /-- The state before the first block. -/
  start : State width
  /-- One constant for every round. -/
  constants : List (BitVec width)
  /-- The rotations of the word that the majority is added to. -/
  majority : Amounts
  /-- The rotations of the word that the choice is added to. -/
  choice : Amounts
  /-- Two rotations and a shift of the schedule's word fifteen places back. -/
  far : Amounts
  /-- Two rotations and a shift of the schedule's word two places back. -/
  near : Amounts

/-! ### Blocks -/

variable {width : Nat}

/-- A word rotated three ways. -/
def rotations (amounts : Amounts) (word : BitVec width) : BitVec width :=
  word.rotateRight amounts.first ^^^ word.rotateRight amounts.second
    ^^^ word.rotateRight amounts.third

/-- A word rotated two ways and shifted. -/
def rotationsAndShift (amounts : Amounts) (word : BitVec width) : BitVec width :=
  word.rotateRight amounts.first ^^^ word.rotateRight amounts.second ^^^ word >>> amounts.third

/-- The schedule prolonged by `count` words. The latest word stands first. -/
def schedule (profile : Profile width) : (count : Nat) → List (BitVec width) → List (BitVec width)
  | 0, recent => recent
  | count + 1, recent =>
    let next := rotationsAndShift profile.near (recent.getD 1 0) + recent.getD 6 0
      + rotationsAndShift profile.far (recent.getD 14 0) + recent.getD 15 0
    schedule profile count (next :: recent)

/-- One round, with its constant and its word of the schedule. -/
def round (profile : Profile width) (state : State width) (constant word : BitVec width) :
    State width :=
  let chosen := (state.e &&& state.f) ^^^ (~~~state.e &&& state.g)
  let first := state.h + rotations profile.choice state.e + chosen + constant + word
  let most := (state.a &&& state.b) ^^^ (state.a &&& state.c) ^^^ (state.b &&& state.c)
  let second := rotations profile.majority state.a + most
  { a := first + second, b := state.a, c := state.b, d := state.c
    e := state.d + first, f := state.e, g := state.f, h := state.g }

/-- The wordwise sum of two states. -/
def State.add (left right : State width) : State width :=
  { a := left.a + right.a, b := left.b + right.b, c := left.c + right.c, d := left.d + right.d
    e := left.e + right.e, f := left.f + right.f, g := left.g + right.g, h := left.h + right.h }

/-- The state after a block of sixteen words. -/
def compress (profile : Profile width) (state : State width) (block : Bytes) : State width :=
  let words := (Bytes.pieces (width / 8) 16 block).map fun word => BitVec.ofNat width word.toNat
  let all := (schedule profile (profile.constants.length - 16) words.reverse).reverse
  state.add <| (profile.constants.zip all).foldl
    (fun state (constant, word) => round profile state constant word) state

/-! ### Messages -/

/-- A message followed by one set bit, zeros, and its length in bits in two words, so that it
fills whole blocks of `16 * wordLength` bytes. -/
def pad (wordLength : Nat) (message : Bytes) : Bytes :=
  let filled := message.length + 1 + 2 * wordLength
  let zeros := (16 * wordLength - filled % (16 * wordLength)) % (16 * wordLength)
  message ++
    0x80 :: (List.replicate zeros 0 ++ Bytes.bigEndian (2 * wordLength) (8 * message.length))

/-- The bytes of a state, word by word. -/
def State.toBytes (state : State width) : Bytes :=
  [state.a, state.b, state.c, state.d, state.e, state.f, state.g, state.h].flatMap fun word =>
    Bytes.bigEndian (width / 8) word.toNat

/-- The digest of a message. -/
def digest (profile : Profile width) (message : Bytes) : Bytes :=
  ((Bytes.chunks (2 * width) (pad (width / 8) message)).foldl (compress profile)
    profile.start).toBytes

@[simp] theorem length_toBytes (state : State width) : state.toBytes.length = 8 * (width / 8) := by
  simp only [State.toBytes, List.length_flatMap, Bytes.length_bigEndian, List.map_cons,
    List.map_nil, List.sum_cons, List.sum_nil]
  omega

@[simp] theorem length_digest (profile : Profile width) (message : Bytes) :
    (digest profile message).length = 8 * (width / 8) := by
  simp [digest]

/-! ### The two functions -/

/-- The first 64 bits of the fractional parts of the cube roots of the first eighty primes. -/
def cubeRoots : List (BitVec 64) := [
  0x428a2f98d728ae22, 0x7137449123ef65cd, 0xb5c0fbcfec4d3b2f, 0xe9b5dba58189dbbc,
  0x3956c25bf348b538, 0x59f111f1b605d019, 0x923f82a4af194f9b, 0xab1c5ed5da6d8118,
  0xd807aa98a3030242, 0x12835b0145706fbe, 0x243185be4ee4b28c, 0x550c7dc3d5ffb4e2,
  0x72be5d74f27b896f, 0x80deb1fe3b1696b1, 0x9bdc06a725c71235, 0xc19bf174cf692694,
  0xe49b69c19ef14ad2, 0xefbe4786384f25e3, 0x0fc19dc68b8cd5b5, 0x240ca1cc77ac9c65,
  0x2de92c6f592b0275, 0x4a7484aa6ea6e483, 0x5cb0a9dcbd41fbd4, 0x76f988da831153b5,
  0x983e5152ee66dfab, 0xa831c66d2db43210, 0xb00327c898fb213f, 0xbf597fc7beef0ee4,
  0xc6e00bf33da88fc2, 0xd5a79147930aa725, 0x06ca6351e003826f, 0x142929670a0e6e70,
  0x27b70a8546d22ffc, 0x2e1b21385c26c926, 0x4d2c6dfc5ac42aed, 0x53380d139d95b3df,
  0x650a73548baf63de, 0x766a0abb3c77b2a8, 0x81c2c92e47edaee6, 0x92722c851482353b,
  0xa2bfe8a14cf10364, 0xa81a664bbc423001, 0xc24b8b70d0f89791, 0xc76c51a30654be30,
  0xd192e819d6ef5218, 0xd69906245565a910, 0xf40e35855771202a, 0x106aa07032bbd1b8,
  0x19a4c116b8d2d0c8, 0x1e376c085141ab53, 0x2748774cdf8eeb99, 0x34b0bcb5e19b48a8,
  0x391c0cb3c5c95a63, 0x4ed8aa4ae3418acb, 0x5b9cca4f7763e373, 0x682e6ff3d6b2b8a3,
  0x748f82ee5defb2fc, 0x78a5636f43172f60, 0x84c87814a1f0ab72, 0x8cc702081a6439ec,
  0x90befffa23631e28, 0xa4506cebde82bde9, 0xbef9a3f7b2c67915, 0xc67178f2e372532b,
  0xca273eceea26619c, 0xd186b8c721c0c207, 0xeada7dd6cde0eb1e, 0xf57d4f7fee6ed178,
  0x06f067aa72176fba, 0x0a637dc5a2c898a6, 0x113f9804bef90dae, 0x1b710b35131c471b,
  0x28db77f523047d84, 0x32caab7b40c72493, 0x3c9ebe0a15c9bebc, 0x431d67c49c100d4c,
  0x4cc5d4becb3e42b6, 0x597f299cfc657e2a, 0x5fcb6fab3ad6faec, 0x6c44198c4a475817
]

/-- The first 64 bits of the fractional parts of the square roots of the first eight primes. -/
def squareRoots : State 64 := {
  a := 0x6a09e667f3bcc908
  b := 0xbb67ae8584caa73b
  c := 0x3c6ef372fe94f82b
  d := 0xa54ff53a5f1d36f1
  e := 0x510e527fade682d1
  f := 0x9b05688c2b3e6c1f
  g := 0x1f83d9abfb41bd6b
  h := 0x5be0cd19137e2179
}

/-- The upper half of a word. -/
def upperHalf (word : BitVec 64) : BitVec 32 := word.extractLsb' 32 32

/-- The state of the upper halves. -/
def State.upperHalves (state : State 64) : State 32 :=
  { a := upperHalf state.a, b := upperHalf state.b, c := upperHalf state.c, d := upperHalf state.d
    e := upperHalf state.e, f := upperHalf state.f, g := upperHalf state.g, h := upperHalf state.h }

/-- SHA-256: words of 32 bits and 64 rounds. -/
def sha256 : Profile 32 where
  start := squareRoots.upperHalves
  constants := (cubeRoots.take 64).map upperHalf
  majority := ⟨2, 13, 22⟩
  choice := ⟨6, 11, 25⟩
  far := ⟨7, 18, 3⟩
  near := ⟨17, 19, 10⟩

/-- SHA-512: words of 64 bits and 80 rounds. -/
def sha512 : Profile 64 where
  start := squareRoots
  constants := cubeRoots
  majority := ⟨28, 34, 39⟩
  choice := ⟨14, 18, 41⟩
  far := ⟨1, 8, 7⟩
  near := ⟨19, 61, 6⟩

end Oscore.Sha2
