/-
This file defines AES-GCM with a nonce of twelve bytes.

The nonce and a block counter of four bytes are encrypted to give the
keystream, from counter two on; counter one masks the tag. The tag is a GHASH
of the associated data, the ciphertext and the two lengths.
-/

import Oscore.Aead.Scheme
import Oscore.Cipher.Aes
import Oscore.Cipher.Authenticator

namespace Oscore.Gcm

/-- The block that is encrypted for a value of the counter. -/
def counterBlock (nonce : Bytes) (counter : Nat) : Aes.Block :=
  .ofBytes (nonce ++ Bytes.bigEndian 4 counter)

/-- All that the tag authenticates, in whole blocks. -/
def authenticated (associated text : Bytes) : Bytes :=
  Bytes.padToMultiple 16 associated ++ Bytes.padToMultiple 16 text
    ++ Bytes.bigEndian 8 (8 * associated.length) ++ Bytes.bigEndian 8 (8 * text.length)

/-- AES-GCM, for keys of 16 and of 32 bytes. The block counter would come round after `2 ^ 36`
bytes, and longer texts are refused; this limit is left out. -/
def scheme : AeadScheme where
  keystream key nonce length :=
    let keys := Aes.roundKeys key
    Bytes.stream 16
      (fun index => (Aes.encrypt keys (counterBlock nonce (index + 2))).toList) length
  tag key nonce associated text :=
    let keys := Aes.roundKeys key
    let point := Ghash.element (Aes.encrypt keys (.ofBytes [])).toList
    let value := Ghash.evaluate point (authenticated associated text)
    let blind : Aes.Block := Aes.encrypt keys (counterBlock nonce 1)
    (blind.xor (.ofBytes (Bytes.bigEndian 16 value.toNat))).toList
  tagLength := 16
  covered := .ciphertext
  capacity := none
  length_keystream _ _ _ := Bytes.length_stream (by decide) (fun _ => Vector.length_toList) _
  length_tag _ _ _ _ := Vector.length_toList

end Oscore.Gcm
