/-
# One padded block in CBC mode

A short secret fills one block: `pad` completes it with `n` bytes of value `n`,
where `n` is at least one, so that different secrets give different blocks
(`pad_inj`). In CBC mode the initialization vector is added before encryption.
Equal inputs give equal blocks, which is what lets a second entry of the secret
be checked without decrypting the first.
-/

import Cashpoint.Cipher.Aes
import Cashpoint.Error

namespace Cashpoint
namespace Cbc

/-- The secret followed by padding bytes that each hold the number of padding bytes. -/
def pad (secret : List UInt8) (h : secret.length < 16) : Block :=
  Bytes.ofList (secret ++ List.replicate (16 - secret.length) (UInt8.ofNat (16 - secret.length)))
    (by simp; omega)

/-- Different secrets are different when they are padded. -/
theorem pad_inj {a b : List UInt8} {ha : a.length < 16} {hb : b.length < 16}
    (h : pad a ha = pad b hb) : a = b := by
  have hl := congrArg Vector.toList h
  simp only [pad, Bytes.toList_ofList] at hl
  have hlast : UInt8.ofNat (16 - a.length) = UInt8.ofNat (16 - b.length) := by
    have := congrArg List.getLast? hl
    rw [List.getLast?_append, List.getLast?_append, List.getLast?_replicate,
      List.getLast?_replicate, if_neg (by omega), if_neg (by omega)] at this
    simpa using this
  have hlen : a.length = b.length := by
    have := congrArg UInt8.toNat hlast
    simp only [UInt8.toNat_ofNat'] at this
    omega
  exact (List.append_inj hl hlen).1

/-- The secret as one encrypted block, if it is shorter than a block. -/
def encryptBlock (cipher : BlockCipher) (iv : Block) (secret : List UInt8) : Except Error Block :=
  if h : secret.length < 16 then
    .ok (cipher ((pad secret h).xor iv))
  else
    .error (.blockTooLong secret.length)

end Cbc
end Cashpoint
