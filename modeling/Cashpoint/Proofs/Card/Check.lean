/-
# The check of a PIN

A card that was made from a PIN accepts that PIN and no other text
(`Card.verify_iff`), because every step of making the card keeps different texts apart:
the bytes of a text, the padding of a block, the vector and AES under a fixed key.
-/

import Cashpoint.Card
import Cashpoint.Proofs.Cipher.Permutation
import Cashpoint.Proofs.Message.RoundTrip

namespace Cashpoint

/-- Different texts have different bytes. -/
theorem Utf8.encode_inj {a b : String} (h : encode a = encode b) : a = b := by
  have hdecode := decode?_encode a
  rw [h, decode?_encode] at hdecode
  exact (Option.some.inj hdecode).symm

/-- A secret of less than a block is padded, combined with the vector and encrypted. No other can be. -/
theorem Cbc.encryptBlock_eq_ok_iff {cipher : BlockCipher} {iv block : Block} {secret : List UInt8} :
    encryptBlock cipher iv secret = .ok block ↔
      ∃ h : secret.length < 16, block = cipher ((pad secret h).xor iv) := by
  unfold encryptBlock
  split
  · rename_i h
    simp only [Except.ok.injEq, @eq_comm _ _ block]
    exact ⟨fun heq => ⟨h, heq⟩, fun ⟨_, heq⟩ => heq⟩
  · rename_i h
    simp only [reduceCtorEq, false_iff]
    rintro ⟨hlt, -⟩
    exact h hlt

/-- The same block under the same vector has come from the same secret. -/
theorem Cbc.encryptBlock_inj {key : Bytes 32} {iv block : Block} {a b : List UInt8}
    (ha : encryptBlock (Aes.encrypt key) iv a = .ok block)
    (hb : encryptBlock (Aes.encrypt key) iv b = .ok block) : a = b := by
  obtain ⟨hla, rfl⟩ := encryptBlock_eq_ok_iff.1 ha
  obtain ⟨hlb, heq⟩ := encryptBlock_eq_ok_iff.1 hb
  exact pad_inj (Bytes.xor_right_inj (Aes.encrypt_inj heq))

namespace Card

/-- A card holds its vector and the encrypted PIN. -/
theorem ofPin_eq_ok_iff {pinKey : Bytes 32} {iv : Block} {pin : String} {card : Card} :
    ofPin pinKey iv pin = .ok card ↔
      card.iv = iv ∧ Cbc.encryptBlock (Aes.encrypt pinKey) iv (Utf8.encode pin) = .ok card.encryptedPin := by
  unfold ofPin
  cases h : Cbc.encryptBlock (Aes.encrypt pinKey) iv (Utf8.encode pin) with
  | error e => simp [bind, Except.bind]
  | ok block =>
    obtain ⟨encryptedPin, cardIv⟩ := card
    simp only [bind, Except.bind, pure, Except.pure, Except.ok.injEq, mk.injEq]
    exact ⟨fun ⟨hp, hi⟩ => ⟨hi.symm, hp⟩, fun ⟨hi, hp⟩ => ⟨hp, hi.symm⟩⟩

/-- **A card accepts the PIN it was made from, and nothing else.** -/
theorem verify_iff {pinKey : Bytes 32} {iv : Block} {pin : String} {card : Card}
    (h : ofPin pinKey iv pin = .ok card) (entered : String) :
    card.verify pinKey entered = true ↔ entered = pin := by
  obtain ⟨hiv, hblock⟩ := ofPin_eq_ok_iff.1 h
  rw [← hiv] at hblock
  constructor
  · intro hverify
    unfold verify at hverify
    split at hverify
    · rename_i other hother
      rw [beq_iff_eq] at hverify
      have hother' := (ofPin_eq_ok_iff.1 hother).2
      rw [hverify] at hother'
      exact Utf8.encode_inj (Cbc.encryptBlock_inj hother' hblock)
    · simp at hverify
  · rintro rfl
    have hsame : ofPin pinKey card.iv entered = .ok card := ofPin_eq_ok_iff.2 ⟨rfl, hblock⟩
    simp only [verify, hsame, beq_self_eq_true]

/-- A text of fewer than 16 bytes fits on a card. -/
theorem ofPin_of_short {pin : String} (h : (Utf8.encode pin).length < 16) (pinKey : Bytes 32) (iv : Block) :
    ∃ card, ofPin pinKey iv pin = .ok card :=
  ⟨⟨_, iv⟩, ofPin_eq_ok_iff.2 ⟨rfl, Cbc.encryptBlock_eq_ok_iff.2 ⟨h, rfl⟩⟩⟩

/-- A longer one does not. -/
theorem ofPin_of_long {pin : String} (h : 16 ≤ (Utf8.encode pin).length) (pinKey : Bytes 32) (iv : Block) :
    ofPin pinKey iv pin = .error (.blockTooLong (Utf8.encode pin).length) := by
  simp [ofPin, Cbc.encryptBlock, Nat.not_lt.2 h, bind, Except.bind]

/-- A PIN always fits on a card. -/
theorem exists_ofPin {pin : String} (h : Credential.isPin pin = true) (pinKey : Bytes 32) (iv : Block) :
    ∃ card, ofPin pinKey iv pin = .ok card := by
  simp only [Credential.isPin, Bool.and_eq_true, beq_iff_eq, List.all_eq_true] at h
  have hascii : Text.IsAscii pin := fun c hc =>
    Text.toNat_lt_of_isAlphanum (by simp [Char.isAlphanum, h.2 c hc])
  refine ofPin_of_short ?_ pinKey iv
  rw [Utf8.length_encode, Utf8.utf8ByteSize_of_ascii hascii]
  omega

end Card
end Cashpoint
