/-
This file decides what the supported algorithms encrypt and decrypt. The ciphertexts
that are decrypted are those that encryption gives, each for one text; they are longer
than it by the tag of the algorithm. A key or a nonce of a wrong length is refused
alike by both, the key first, and with the right ones only a text that is too long is
not encrypted, and only a ciphertext of no text is not decrypted.
-/

import Oscore.Proofs.ProtectedMessages
import Oscore.Proofs.Refusals

namespace Oscore.AeadAlgorithm

variable {algorithm : AeadAlgorithm} {key nonce associated plaintext sealed : Bytes}
  {cause : Failure}

/-! ### Lengths -/

/-- The mode of an algorithm appends tags of the algorithm's length. -/
theorem scheme_tagLength (algorithm : AeadAlgorithm) :
    algorithm.scheme.tagLength = algorithm.tagLength := by
  cases algorithm <;> rfl

theorem length_sealed (encrypted : algorithm.encrypt key nonce associated plaintext = .ok sealed) :
    sealed.length = plaintext.length + algorithm.tagLength := by
  obtain ⟨-, -, made⟩ := encrypt_eq_ok.mp encrypted
  rw [AeadScheme.length_encrypt made, scheme_tagLength]

/-- Texts up to the bound of AES-CCM can be encrypted with every algorithm. -/
theorem admits_of_short (algorithm : AeadAlgorithm) {length : Nat} (short : length ≤ 65535) :
    algorithm.scheme.admits length = true := by
  cases algorithm with
  | aesCcm8 => exact decide_eq_true short
  | aesCcm16 => exact decide_eq_true short
  | _ => rfl

/-- AES-CCM has no room for the length of a longer text. -/
theorem not_admits_of_long (ccm : algorithm = .aesCcm8 ∨ algorithm = .aesCcm16) {length : Nat}
    (long : 65535 < length) : algorithm.scheme.admits length = false := by
  have tooLong : ¬length ≤ 65535 := Nat.not_le.mpr long
  rcases ccm with rfl | rfl
  · exact decide_eq_false tooLong
  · exact decide_eq_false tooLong

/-! ### Keys and nonces -/

/-- What is wrong with the lengths is said before anything else, whatever is asked for. -/
theorem refused_of_checkLengths (refused : algorithm.checkLengths key nonce = .error cause)
    (associated text : Bytes) :
    algorithm.encrypt key nonce associated text = .error cause ∧
      algorithm.decrypt key nonce associated text = .error cause := by
  rw [encrypt, decrypt, refused]
  exact ⟨rfl, rfl⟩

theorem checkLengths_of_key (wrong : key.length ≠ algorithm.keyLength) (nonce : Bytes) :
    algorithm.checkLengths key nonce = .error (.key (.length algorithm.keyLength key.length)) :=
  if_pos wrong

theorem checkLengths_of_nonce (right : key.length = algorithm.keyLength)
    (wrong : nonce.length ≠ algorithm.nonceLength) :
    algorithm.checkLengths key nonce =
      .error (.nonceLength algorithm.nonceLength nonce.length) := by
  rw [checkLengths, if_neg (not_not.mpr right), if_pos wrong]

/-! ### Ciphertexts -/

/-- Under a key and a nonce of the right lengths, only what no text encrypts to is not decrypted. -/
theorem decrypt_eq_error (keyLength : key.length = algorithm.keyLength)
    (nonceLength : nonce.length = algorithm.nonceLength) :
    algorithm.decrypt key nonce associated sealed = .error cause ↔
      (∀ plaintext, algorithm.encrypt key nonce associated plaintext ≠ .ok sealed) ∧
        cause = .decryption := by
  have lengths := checkLengths_eq_ok.mpr ⟨keyLength, nonceLength⟩
  simp only [← decrypt_eq_ok_iff_encrypt, ne_eq]
  rw [decrypt, lengths]
  cases algorithm.scheme.decrypt key nonce associated sealed with
  | some plaintext =>
    show Except.ok plaintext = .error cause ↔ (∀ other, ¬Except.ok plaintext = .ok other) ∧ _
    have taken : ¬∀ other, ¬(Except.ok plaintext : Except Failure Bytes) = .ok other :=
      fun unsealed => unsealed plaintext rfl
    simp only [reduceCtorEq, taken, false_and]
  | none =>
    show Except.error Failure.decryption = .error cause ↔
      (∀ other : Bytes, ¬Except.error Failure.decryption = .ok other) ∧ _
    simp only [reduceCtorEq, not_false_eq_true, implies_true, true_and, Except.error.injEq, eq_comm]

/-! ### Encryption and decryption -/

/-- What a text encrypts to is longer by the tag and decrypts to it; whatever decrypts to a text is
what it encrypts to, so the ciphertexts that are accepted are those that are given. A key of a wrong
length is refused by both with the same failure, and so is a nonce of a wrong length when the key is
right. When both are right, texts of up to 65535 bytes are encrypted, longer ones not with AES-CCM,
and a ciphertext of no text is not decrypted. -/
theorem decrypts_exactly_encrypted (algorithm : AeadAlgorithm) (key nonce associated : Bytes) :
    (∀ plaintext sealed, algorithm.encrypt key nonce associated plaintext = .ok sealed →
      sealed.length = plaintext.length + algorithm.tagLength ∧
        algorithm.decrypt key nonce associated sealed = .ok plaintext) ∧
    (∀ sealed plaintext, algorithm.decrypt key nonce associated sealed = .ok plaintext →
      algorithm.encrypt key nonce associated plaintext = .ok sealed) ∧
    (∀ sealed, (∃ plaintext, algorithm.decrypt key nonce associated sealed = .ok plaintext) ↔
      ∃ plaintext, algorithm.encrypt key nonce associated plaintext = .ok sealed) ∧
    (key.length ≠ algorithm.keyLength → ∀ text,
      algorithm.encrypt key nonce associated text =
          .error (.key (.length algorithm.keyLength key.length)) ∧
        algorithm.decrypt key nonce associated text =
          .error (.key (.length algorithm.keyLength key.length))) ∧
    (key.length = algorithm.keyLength → nonce.length ≠ algorithm.nonceLength → ∀ text,
      algorithm.encrypt key nonce associated text =
          .error (.nonceLength algorithm.nonceLength nonce.length) ∧
        algorithm.decrypt key nonce associated text =
          .error (.nonceLength algorithm.nonceLength nonce.length)) ∧
    (key.length = algorithm.keyLength → nonce.length = algorithm.nonceLength →
      (∀ plaintext, plaintext.length ≤ 65535 →
        ∃ sealed, algorithm.encrypt key nonce associated plaintext = .ok sealed) ∧
      (∀ plaintext, algorithm = .aesCcm8 ∨ algorithm = .aesCcm16 → 65535 < plaintext.length →
        algorithm.encrypt key nonce associated plaintext = .error .encryption) ∧
      ∀ sealed, (∀ plaintext, algorithm.encrypt key nonce associated plaintext ≠ .ok sealed) →
        algorithm.decrypt key nonce associated sealed = .error .decryption) := by
  refine ⟨?_, ?_, ?_, ?_, ?_, ?_⟩
  · intro plaintext sealed encrypted
    exact ⟨length_sealed encrypted, decrypt_eq_ok_iff_encrypt.mpr encrypted⟩
  · intro sealed plaintext decrypted
    exact decrypt_eq_ok_iff_encrypt.mp decrypted
  · intro sealed
    exact exists_congr fun plaintext => decrypt_eq_ok_iff_encrypt
  · intro wrong
    exact refused_of_checkLengths (checkLengths_of_key wrong nonce) associated
  · intro right wrong
    exact refused_of_checkLengths (checkLengths_of_nonce right wrong) associated
  · intro keyLength nonceLength
    refine ⟨?_, ?_, ?_⟩
    · intro plaintext short
      exact exists_encrypt keyLength nonceLength (algorithm.admits_of_short short)
    · intro plaintext ccm long
      exact (encrypt_eq_error keyLength nonceLength).mpr ⟨not_admits_of_long ccm long, rfl⟩
    · intro sealed unsealed
      exact (decrypt_eq_error keyLength nonceLength).mpr ⟨unsealed, rfl⟩

/-- With the shorter tag of AES-CCM, a text of 3 bytes is encrypted to 11 that decrypt to it, and 7
bytes are too few for a tag; a key and a nonce of no bytes are refused for the key, and a nonce of
no bytes alone for the nonce. -/
theorem decrypts_exactly_encrypted_short :
    let key : Bytes := List.replicate 16 1
    let nonce : Bytes := List.replicate 13 2
    (∃ sealed, aesCcm8.encrypt key nonce [] [7, 8, 9] = .ok sealed ∧ sealed.length = 11 ∧
      aesCcm8.decrypt key nonce [] sealed = .ok [7, 8, 9]) ∧
    aesCcm8.decrypt key nonce [] (List.replicate 7 0) = .error .decryption ∧
    aesCcm8.encrypt [] [] [] [7] = .error (.key (.length 16 0)) ∧
    aesCcm8.decrypt key [] [] [7] = .error (.nonceLength 13 0) := by
  intro key nonce
  obtain ⟨given, -, -, -, -, right⟩ := decrypts_exactly_encrypted .aesCcm8 key nonce []
  obtain ⟨-, -, -, wrongKey, -, -⟩ := decrypts_exactly_encrypted .aesCcm8 [] [] []
  obtain ⟨-, -, -, -, wrongNonce, -⟩ := decrypts_exactly_encrypted .aesCcm8 key [] []
  obtain ⟨encrypted, -, refused⟩ := right rfl rfl
  obtain ⟨sealed, made⟩ := encrypted [7, 8, 9] (by decide)
  obtain ⟨length, again⟩ := given [7, 8, 9] sealed made
  refine ⟨⟨sealed, made, length, again⟩, refused _ fun plaintext other => ?_,
    (wrongKey (by decide) [7]).1, (wrongNonce rfl (by decide) [7]).2⟩
  have whole : 7 = plaintext.length + 8 := (given _ _ other).1
  omega

end Oscore.AeadAlgorithm
