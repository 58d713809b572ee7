/-
This file defines ChaCha20 with Poly1305.

Block zero of the keystream gives the key of the tag, and the text is added to
the blocks from one on. The tag is a Poly1305 of the associated data, the
ciphertext and the two lengths.
-/

import Oscore.Aead.Scheme
import Oscore.Cipher.Authenticator
import Oscore.Cipher.ChaCha20

namespace Oscore.ChaChaPoly

/-- All that the tag authenticates. -/
def authenticated (associated text : Bytes) : Bytes :=
  Bytes.padToMultiple 16 associated ++ Bytes.padToMultiple 16 text
    ++ Bytes.littleEndian 8 associated.length ++ Bytes.littleEndian 8 text.length

/-- ChaCha20 with Poly1305. The block counter would come round after `2 ^ 38` bytes, and longer
texts are refused; this limit is left out. -/
def scheme : AeadScheme where
  keystream key nonce length :=
    Bytes.stream 64 (fun index => ChaCha20.block key (index + 1) nonce) length
  tag key nonce associated text :=
    Poly1305.tag ((ChaCha20.block key 0 nonce).take 32) (authenticated associated text)
  tagLength := 16
  covered := .ciphertext
  capacity := none
  length_keystream _ _ _ := Bytes.length_stream (by decide) (fun _ => ChaCha20.length_block _ _ _) _
  length_tag _ _ _ _ := Poly1305.length_tag _ _

end Oscore.ChaChaPoly
