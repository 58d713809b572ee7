/-
This file defines AES-CCM with a nonce of thirteen bytes.

Such a nonce leaves two bytes to count blocks and to write the length of the
text, which therefore has at most 65535 bytes. The tag is a chained encryption
of the length, the associated data and the text before encryption.
-/

import Oscore.Aead.Scheme
import Oscore.Cipher.Aes

namespace Oscore.Ccm

/-- The block that is encrypted to give block `index` of the keystream. -/
def counterBlock (nonce : Bytes) (index : Nat) : Aes.Block :=
  .ofBytes (1 :: (nonce ++ Bytes.bigEndian 2 index))

/-- The length of associated data in front of the data, or nothing for empty data. -/
def associatedHeader (length : Nat) : Bytes :=
  if length = 0 then []
  else if length < 0xff00 then Bytes.bigEndian 2 length
  else if length < 0x100000000 then 0xff :: 0xfe :: Bytes.bigEndian 4 length
  else 0xff :: 0xff :: Bytes.bigEndian 8 length

/-- The first block under the chain: a byte with the parameters, the nonce and the length. -/
def firstBlock (tagLength : Nat) (nonce associated text : Bytes) : Bytes :=
  let flags := (if associated.isEmpty then 0 else 64) + 8 * ((tagLength - 2) / 2) + 1
  UInt8.ofNat flags :: (nonce ++ Bytes.bigEndian 2 text.length)

/-- The last block of the chain over these bytes. -/
def chain (keys : List Aes.Block) (bytes : Bytes) : Aes.Block :=
  (Bytes.chunks 16 bytes).foldl
    (fun previous block => Aes.encrypt keys (previous.xor (.ofBytes block))) (.ofBytes [])

/-- All that the tag authenticates, filled up to whole blocks. -/
def authenticated (tagLength : Nat) (nonce associated text : Bytes) : Bytes :=
  firstBlock tagLength nonce associated text
    ++ Bytes.padToMultiple 16 (associatedHeader associated.length ++ associated)
    ++ Bytes.padToMultiple 16 text

/-- The tag of a message: the end of the chain, masked by block zero. -/
def tag (tagLength : Nat) (key nonce associated text : Bytes) : Bytes :=
  let keys := Aes.roundKeys key
  let chained := chain keys (authenticated tagLength nonce associated text)
  (chained.xor (Aes.encrypt keys (counterBlock nonce 0))).toList.take tagLength

theorem length_tag {tagLength : Nat} (short : tagLength ≤ 16) (key nonce associated text : Bytes) :
    (tag tagLength key nonce associated text).length = tagLength := by
  simp only [tag, List.length_take, Vector.length_toList]
  exact Nat.min_eq_left short

/-- AES-CCM with tags of `tagLength` bytes, at most sixteen. -/
def scheme (tagLength : Nat) (short : tagLength ≤ 16) : AeadScheme where
  keystream key nonce length :=
    let keys := Aes.roundKeys key
    Bytes.stream 16
      (fun index => (Aes.encrypt keys (counterBlock nonce (index + 1))).toList) length
  tag := tag tagLength
  tagLength
  covered := .plaintext
  capacity := some 65535
  length_keystream _ _ _ := Bytes.length_stream (by decide) (fun _ => Vector.length_toList) _
  length_tag := length_tag short

end Oscore.Ccm
