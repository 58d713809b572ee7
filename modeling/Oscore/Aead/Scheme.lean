/-
This file says what the modes of authenticated encryption have in common.

Each mode adds a keystream to the text and appends a tag. The modes differ in
how they make the keystream and the tag, in whether the tag covers the text
before or after encryption, and in how long a text may be. Decryption recomputes
the tag and answers only when it is the one that was sent. The laws at the end
say that decryption takes back what encryption gave, whatever the mode.
-/

import Oscore.Bytes

namespace Oscore

/-- The text that a tag is computed over. -/
inductive Covered
  | plaintext
  | ciphertext
  deriving DecidableEq, Repr

/-- A mode of authenticated encryption. -/
structure AeadScheme where
  /-- The keystream of a key and a nonce, of a given length. -/
  keystream : (key nonce : Bytes) → (length : Nat) → Bytes
  /-- The tag of associated data and a text. -/
  tag : (key nonce associated text : Bytes) → Bytes
  /-- The length of a tag. -/
  tagLength : Nat
  /-- Which text the tag is computed over. -/
  covered : Covered
  /-- The longest text that can be encrypted, if there is a bound. -/
  capacity : Option Nat
  /-- A keystream is as long as was asked for. -/
  length_keystream : ∀ key nonce length, (keystream key nonce length).length = length
  /-- Every tag has the stated length. -/
  length_tag : ∀ key nonce associated text, (tag key nonce associated text).length = tagLength

namespace AeadScheme

/-- Whether a text of this length can be encrypted. -/
def admits (scheme : AeadScheme) (length : Nat) : Bool :=
  match scheme.capacity with
  | none => true
  | some capacity => length ≤ capacity

/-- A text with the keystream added to it. -/
def mask (scheme : AeadScheme) (key nonce text : Bytes) : Bytes :=
  Bytes.xor text (scheme.keystream key nonce text.length)

/-- The tag of a message, given both of its texts. -/
def tagOf (scheme : AeadScheme) (key nonce associated plaintext ciphertext : Bytes) : Bytes :=
  match scheme.covered with
  | .plaintext => scheme.tag key nonce associated plaintext
  | .ciphertext => scheme.tag key nonce associated ciphertext

/-- The ciphertext of a text with the tag appended, if the text is not too long. -/
def encrypt (scheme : AeadScheme) (key nonce associated plaintext : Bytes) : Option Bytes :=
  if scheme.admits plaintext.length then
    let ciphertext := scheme.mask key nonce plaintext
    some (ciphertext ++ scheme.tagOf key nonce associated plaintext ciphertext)
  else none

/-- The text of a ciphertext with a tag appended, if the tag is right. -/
def decrypt (scheme : AeadScheme) (key nonce associated sealed : Bytes) : Option Bytes :=
  let length := sealed.length - scheme.tagLength
  if scheme.tagLength ≤ sealed.length ∧ scheme.admits length then
    let ciphertext := sealed.take length
    let plaintext := scheme.mask key nonce ciphertext
    if sealed.drop length = scheme.tagOf key nonce associated plaintext ciphertext then
      some plaintext
    else none
  else none

/-! ### Laws -/

@[simp] theorem length_mask (scheme : AeadScheme) (key nonce text : Bytes) :
    (scheme.mask key nonce text).length = text.length := by
  rw [mask, Bytes.length_xor, scheme.length_keystream, Nat.min_self]

/-- Masking is its own inverse. -/
@[simp] theorem mask_mask (scheme : AeadScheme) (key nonce text : Bytes) :
    scheme.mask key nonce (scheme.mask key nonce text) = text := by
  rw [mask, length_mask, mask]
  exact Bytes.xor_xor_cancel (Nat.le_of_eq (scheme.length_keystream _ _ _).symm)

@[simp] theorem length_tagOf (scheme : AeadScheme)
    (key nonce associated plaintext ciphertext : Bytes) :
    (scheme.tagOf key nonce associated plaintext ciphertext).length = scheme.tagLength := by
  rw [tagOf]
  split <;> exact scheme.length_tag _ _ _ _

theorem length_encrypt {scheme : AeadScheme} {key nonce associated plaintext sealed : Bytes}
    (encrypted : scheme.encrypt key nonce associated plaintext = some sealed) :
    sealed.length = plaintext.length + scheme.tagLength := by
  rw [encrypt] at encrypted
  split at encrypted
  · cases encrypted
    rw [List.length_append, length_mask, length_tagOf]
  · cases encrypted

/-- What encryption gives, decryption takes back. -/
theorem decrypt_encrypt {scheme : AeadScheme} {key nonce associated plaintext sealed : Bytes}
    (encrypted : scheme.encrypt key nonce associated plaintext = some sealed) :
    scheme.decrypt key nonce associated sealed = some plaintext := by
  have whole := length_encrypt encrypted
  rw [encrypt] at encrypted
  split at encrypted
  case isTrue admitted =>
    cases encrypted
    have cut : (scheme.mask key nonce plaintext ++ scheme.tagOf key nonce associated plaintext
        (scheme.mask key nonce plaintext)).length - scheme.tagLength
        = (scheme.mask key nonce plaintext).length := by
      rw [whole, length_mask, Nat.add_sub_cancel]
    rw [decrypt]
    simp only [cut, List.take_left, List.drop_left, mask_mask]
    rw [length_mask, if_pos ⟨by omega, admitted⟩]
    exact if_pos trivial
  case isFalse => cases encrypted

end AeadScheme

end Oscore
