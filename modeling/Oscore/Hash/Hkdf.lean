/-
This file derives keys: HMAC, and the extract and expand steps built on it.

A `Hash` is a digest function together with the two lengths that HMAC needs.
Expansion yields exactly as many bytes as were asked for, and refuses to yield
more than 255 digests.
-/

import Oscore.Algorithm
import Oscore.Hash.Sha2

namespace Oscore

/-- A hash function with digests of a fixed length. -/
structure Hash where
  /-- The length of a block. -/
  blockLength : Nat
  /-- The length of a digest. -/
  digestLength : Nat
  /-- The digest of a message. -/
  digest : Bytes → Bytes
  /-- Every digest has its length. -/
  length_digest : ∀ message, (digest message).length = digestLength

namespace Hash

/-- SHA-256. -/
def sha256 : Hash where
  blockLength := 64
  digestLength := 32
  digest := Sha2.digest Sha2.sha256
  length_digest := Sha2.length_digest _

/-- SHA-512. -/
def sha512 : Hash where
  blockLength := 128
  digestLength := 64
  digest := Sha2.digest Sha2.sha512
  length_digest := Sha2.length_digest _

/-! ### Authentication codes -/

/-- A key brought to the length of a block: hashed if it is longer, then filled with zeros. -/
def blockKey (hash : Hash) (key : Bytes) : Bytes :=
  let short := if key.length > hash.blockLength then hash.digest key else key
  short ++ List.replicate (hash.blockLength - short.length) 0

/-- The authentication code of a message under a key. -/
def hmac (hash : Hash) (key message : Bytes) : Bytes :=
  let key := hash.blockKey key
  hash.digest (key.map (· ^^^ 0x5c) ++ hash.digest (key.map (· ^^^ 0x36) ++ message))

@[simp] theorem length_hmac (hash : Hash) (key message : Bytes) :
    (hash.hmac key message).length = hash.digestLength :=
  hash.length_digest _

/-! ### Key derivation -/

/-- The blocks of the output, each made from the one before it; `index` numbers the next. -/
def expandBlocks (hash : Hash) (key info : Bytes) :
    (count index : Nat) → (previous : Bytes) → Bytes
  | 0, _, _ => []
  | count + 1, index, previous =>
    let block := hash.hmac key (previous ++ (info ++ [UInt8.ofNat index]))
    block ++ expandBlocks hash key info count (index + 1) block

/-- The output of a given length for a secret, a salt and the purpose that `info` names. -/
def derive (hash : Hash) (secret salt info : Bytes) (length : Nat) : Except Failure Bytes :=
  if length > 255 * hash.digestLength then .error .derivation
  else
    let count := (length + hash.digestLength - 1) / hash.digestLength
    .ok ((expandBlocks hash (hash.hmac salt secret) info count 1 []).take length)

end Hash

/-- The hash function of a key derivation algorithm. -/
def KdfAlgorithm.hash : KdfAlgorithm → Hash
  | sha256 => Hash.sha256
  | sha512 => Hash.sha512

end Oscore
