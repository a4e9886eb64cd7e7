/-
# GCM

Authenticated encryption with vectors of twelve bytes and tags of sixteen, over any
block cipher. The ciphertext is the plaintext added to a key stream and has its
length. The tag covers the ciphertext and the associated data; nothing is decrypted
unless it matches.

`decrypt_encrypt` says that opening undoes sealing, whatever the block cipher.
-/

import Cashpoint.Cipher.Ghash
import Cashpoint.Error

namespace Cashpoint
namespace Gcm

/-- The vector followed by a 32-bit block number. -/
def counterBlock (iv : Bytes 12) (number : Nat) : Block :=
  Vector.cast (by decide) (iv ++ bigEndian 4 number)

/-- At least `length` bytes of key stream: the encrypted counter blocks from number two on. -/
def keyStream (cipher : BlockCipher) (iv : Bytes 12) (length : Nat) : List UInt8 :=
  (List.range ((length + 15) / 16)).flatMap fun i => (cipher (counterBlock iv (i + 2))).toList

/-- The key stream comes in whole blocks. -/
theorem length_keyStream (cipher : BlockCipher) (iv : Bytes 12) (length : Nat) :
    (keyStream cipher iv length).length = 16 * ((length + 15) / 16) := by
  simp [keyStream, List.length_flatMap, List.map_const', Nat.mul_comm]

/-- Data added to the key stream. -/
def applyKeyStream (cipher : BlockCipher) (iv : Bytes 12) (data : List UInt8) : List UInt8 :=
  List.zipWith (· ^^^ ·) data (keyStream cipher iv data.length)

/-- Encryption changes no length. -/
@[simp] theorem length_applyKeyStream (cipher : BlockCipher) (iv : Bytes 12) (data : List UInt8) :
    (applyKeyStream cipher iv data).length = data.length := by
  rw [applyKeyStream, List.length_zipWith, length_keyStream]
  omega

/-- The key stream that is added twice is gone. -/
theorem zipWith_xor_cancel (data stream : List UInt8) (h : data.length ≤ stream.length) :
    List.zipWith (· ^^^ ·) (List.zipWith (· ^^^ ·) data stream) stream = data := by
  induction data generalizing stream with
  | nil => rfl
  | cons b rest ih =>
    cases stream with
    | nil => simp at h
    | cons s stream =>
      simp only [List.length_cons, Nat.add_le_add_iff_right] at h
      simp only [List.zipWith_cons_cons, ih stream h, Bytes.byte_xor_cancel]

/-- Adding the key stream twice gives the data back. -/
theorem applyKeyStream_applyKeyStream (cipher : BlockCipher) (iv : Bytes 12) (data : List UInt8) :
    applyKeyStream cipher iv (applyKeyStream cipher iv data) = data := by
  rw [applyKeyStream, length_applyKeyStream]
  refine zipWith_xor_cancel _ _ ?_
  rw [length_keyStream]
  omega

/-- The tag of a ciphertext and its associated data: the hash of both under the encrypted zero
block, hidden under the encrypted first counter block. -/
def tag (cipher : BlockCipher) (iv : Bytes 12) (aad ciphertext : List UInt8) : Block :=
  let key := Ghash.ofBlock (cipher (Bytes.zero 16))
  (Ghash.toBlock (Ghash.hash key ((Ghash.input aad ciphertext).map Ghash.ofBlock))).xor
    (cipher (counterBlock iv 1))

/-- Ciphertext and tag. The cipher is meant for at most `2^36` bytes of plaintext and of associated data, and whoever
implements it refuses longer ones (`plaintext too long for GCM`). None gets here: a plaintext in a frame has at most
1024 bytes, which is tested before, and the associated data 28. -/
def encrypt (cipher : BlockCipher) (iv : Bytes 12) (aad plaintext : List UInt8) : List UInt8 × Block :=
  let ciphertext := applyKeyStream cipher iv plaintext
  (ciphertext, tag cipher iv aad ciphertext)

/-- The plaintext, if the tag is that of the ciphertext and the associated data. -/
def decrypt (cipher : BlockCipher) (iv : Bytes 12) (aad ciphertext : List UInt8) (given : Block) :
    Except Error (List UInt8) :=
  if given = tag cipher iv aad ciphertext then
    .ok (applyKeyStream cipher iv ciphertext)
  else
    .error .integrity

/-- **What was encrypted is decrypted again.** -/
theorem decrypt_encrypt (cipher : BlockCipher) (iv : Bytes 12) (aad plaintext : List UInt8) :
    decrypt cipher iv aad (encrypt cipher iv aad plaintext).1 (encrypt cipher iv aad plaintext).2 =
      .ok plaintext := by
  simp [decrypt, encrypt, applyKeyStream_applyKeyStream]

/-- Decryption fails only on the tag. -/
theorem decrypt_eq_error_iff {cipher : BlockCipher} {iv : Bytes 12} {aad ciphertext : List UInt8}
    {given : Block} {e : Error} :
    decrypt cipher iv aad ciphertext given = .error e ↔
      given ≠ tag cipher iv aad ciphertext ∧ e = .integrity := by
  unfold decrypt
  split <;> simp_all [eq_comm]

end Gcm
end Cashpoint
