/-
This file encrypts and decrypts with any of the supported algorithms.

The key and the nonce must have the lengths that the algorithm takes; the key
is looked at first. A text that is too long is not encrypted, and a ciphertext
whose tag is not right is not decrypted.
-/

import Oscore.Aead.Ccm
import Oscore.Aead.ChaChaPoly
import Oscore.Aead.Gcm
import Oscore.Algorithm

namespace Oscore.AeadAlgorithm

/-- The mode and tag length of an algorithm. Encryption and decryption use the same one. -/
def scheme : AeadAlgorithm → AeadScheme
  | aesCcm8 => Ccm.scheme 8 (by decide)
  | aesCcm16 => Ccm.scheme 16 (by decide)
  | aesGcm128 | aesGcm256 => Gcm.scheme
  | chaCha20Poly1305 => ChaChaPoly.scheme

/-- Accepts a key and a nonce of the right lengths. -/
def checkLengths (algorithm : AeadAlgorithm) (key nonce : Bytes) : Except Failure Unit :=
  if key.length ≠ algorithm.keyLength then
    .error (.key (.length algorithm.keyLength key.length))
  else if nonce.length ≠ algorithm.nonceLength then
    .error (.nonceLength algorithm.nonceLength nonce.length)
  else .ok ()

/-- The ciphertext of a text with the tag appended. -/
def encrypt (algorithm : AeadAlgorithm) (key nonce associated plaintext : Bytes) :
    Except Failure Bytes := do
  algorithm.checkLengths key nonce
  match algorithm.scheme.encrypt key nonce associated plaintext with
  | some sealed => .ok sealed
  | none => .error .encryption

/-- The text of a ciphertext with the tag appended. -/
def decrypt (algorithm : AeadAlgorithm) (key nonce associated sealed : Bytes) :
    Except Failure Bytes := do
  algorithm.checkLengths key nonce
  match algorithm.scheme.decrypt key nonce associated sealed with
  | some plaintext => .ok plaintext
  | none => .error .decryption

end Oscore.AeadAlgorithm
