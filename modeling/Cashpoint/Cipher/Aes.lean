/-
# AES-256

The block cipher AES with a 32-byte key: fifteen round keys and fourteen rounds over
a block of sixteen bytes, in which byte `r + 4 c` stands in row `r` and column `c`.

Each layer of a round is a function of its own, because each can be undone by
itself: `subBytes` replaces bytes by a permutation of the 256 values, `shiftRows`
moves them, `mixColumns` is linear and `addRoundKey` is its own inverse.
-/

import Cashpoint.Bytes

namespace Cashpoint

/-- The unit of the cipher. -/
abbrev Block := Bytes 16

/-- A map of blocks to blocks, such as AES under a fixed key. -/
abbrev BlockCipher := Block → Block

namespace Aes

set_option maxRecDepth 4000 in
/-- The substitution table: the inverse in the field of 256 elements, followed by
an affine map of its bits. -/
def substitution : Vector UInt8 256 := #v[
  0x63, 0x7c, 0x77, 0x7b, 0xf2, 0x6b, 0x6f, 0xc5, 0x30, 0x01, 0x67, 0x2b, 0xfe, 0xd7, 0xab, 0x76,
  0xca, 0x82, 0xc9, 0x7d, 0xfa, 0x59, 0x47, 0xf0, 0xad, 0xd4, 0xa2, 0xaf, 0x9c, 0xa4, 0x72, 0xc0,
  0xb7, 0xfd, 0x93, 0x26, 0x36, 0x3f, 0xf7, 0xcc, 0x34, 0xa5, 0xe5, 0xf1, 0x71, 0xd8, 0x31, 0x15,
  0x04, 0xc7, 0x23, 0xc3, 0x18, 0x96, 0x05, 0x9a, 0x07, 0x12, 0x80, 0xe2, 0xeb, 0x27, 0xb2, 0x75,
  0x09, 0x83, 0x2c, 0x1a, 0x1b, 0x6e, 0x5a, 0xa0, 0x52, 0x3b, 0xd6, 0xb3, 0x29, 0xe3, 0x2f, 0x84,
  0x53, 0xd1, 0x00, 0xed, 0x20, 0xfc, 0xb1, 0x5b, 0x6a, 0xcb, 0xbe, 0x39, 0x4a, 0x4c, 0x58, 0xcf,
  0xd0, 0xef, 0xaa, 0xfb, 0x43, 0x4d, 0x33, 0x85, 0x45, 0xf9, 0x02, 0x7f, 0x50, 0x3c, 0x9f, 0xa8,
  0x51, 0xa3, 0x40, 0x8f, 0x92, 0x9d, 0x38, 0xf5, 0xbc, 0xb6, 0xda, 0x21, 0x10, 0xff, 0xf3, 0xd2,
  0xcd, 0x0c, 0x13, 0xec, 0x5f, 0x97, 0x44, 0x17, 0xc4, 0xa7, 0x7e, 0x3d, 0x64, 0x5d, 0x19, 0x73,
  0x60, 0x81, 0x4f, 0xdc, 0x22, 0x2a, 0x90, 0x88, 0x46, 0xee, 0xb8, 0x14, 0xde, 0x5e, 0x0b, 0xdb,
  0xe0, 0x32, 0x3a, 0x0a, 0x49, 0x06, 0x24, 0x5c, 0xc2, 0xd3, 0xac, 0x62, 0x91, 0x95, 0xe4, 0x79,
  0xe7, 0xc8, 0x37, 0x6d, 0x8d, 0xd5, 0x4e, 0xa9, 0x6c, 0x56, 0xf4, 0xea, 0x65, 0x7a, 0xae, 0x08,
  0xba, 0x78, 0x25, 0x2e, 0x1c, 0xa6, 0xb4, 0xc6, 0xe8, 0xdd, 0x74, 0x1f, 0x4b, 0xbd, 0x8b, 0x8a,
  0x70, 0x3e, 0xb5, 0x66, 0x48, 0x03, 0xf6, 0x0e, 0x61, 0x35, 0x57, 0xb9, 0x86, 0xc1, 0x1d, 0x9e,
  0xe1, 0xf8, 0x98, 0x11, 0x69, 0xd9, 0x8e, 0x94, 0x9b, 0x1e, 0x87, 0xe9, 0xce, 0x55, 0x28, 0xdf,
  0x8c, 0xa1, 0x89, 0x0d, 0xbf, 0xe6, 0x42, 0x68, 0x41, 0x99, 0x2d, 0x0f, 0xb0, 0x54, 0xbb, 0x16]

/-- The table entry of one byte. -/
def substitute (b : UInt8) : UInt8 := substitution.get ⟨b.toNat, b.toNat_lt⟩

/-- Product with `x` in the field of 256 elements, modulo `x^8 + x^4 + x^3 + x + 1`. -/
def timesX (b : UInt8) : UInt8 := if b < 0x80 then b <<< 1 else (b <<< 1) ^^^ 0x1b

/-- Every byte is replaced by that in the table. -/
def subBytes (s : Block) : Block := s.map substitute

/-- Row `r` moves `r` columns to the left. -/
def shiftRows (s : Block) : Block :=
  Vector.ofFn fun i => s.get ⟨(5 * i.val) % 16, Nat.mod_lt _ (by decide)⟩

/-- Byte `row` of the product of a column with the circulant matrix `2 3 1 1`. -/
def mixedByte (s : Block) (column row : Nat) : UInt8 :=
  let byte (k : Nat) : UInt8 := s.get ⟨(4 * column + k % 4) % 16, Nat.mod_lt _ (by decide)⟩
  timesX (byte row) ^^^ (timesX (byte (row + 1)) ^^^ byte (row + 1)) ^^^ byte (row + 2) ^^^ byte (row + 3)

/-- Every column is multiplied by a fixed matrix. -/
def mixColumns (s : Block) : Block :=
  Vector.ofFn fun i => mixedByte s (i.val / 4) (i.val % 4)

/-- The round key is added. -/
def addRoundKey (key s : Block) : Block := s.xor key

/-! ## Round keys -/

/-- The word that starts a new round key, from the last word of the round key before it. Every
other round key rotates the word and adds a power of `x`; those between only substitute. -/
def scheduleWord (rotates : Bool) (constant : UInt8) (previous : Block) : Bytes 4 :=
  if rotates then
    #v[substitute previous[13] ^^^ constant, substitute previous[14], substitute previous[15],
      substitute previous[12]]
  else
    #v[substitute previous[12], substitute previous[13], substitute previous[14],
      substitute previous[15]]

/-- The round key whose words are the running sums of `start` and the words of the round key
two places earlier. -/
def nextRoundKey (start : Bytes 4) (earlier : Block) : Block :=
  let first (k : Nat) : UInt8 := start.get ⟨k % 4, Nat.mod_lt _ (by decide)⟩
  let word (w k : Nat) : UInt8 := earlier.get ⟨(4 * w + k % 4) % 16, Nat.mod_lt _ (by decide)⟩
  Vector.ofFn fun i => (List.range (i.val / 4 + 1)).foldl (fun sum w => sum ^^^ word w i.val) (first i.val)

/-- The next `count` round keys after the two given ones. -/
def schedule : (count : Nat) → (rotates : Bool) → (constant : UInt8) → (earlier previous : Block) →
    List Block
  | 0, _, _, _, _ => []
  | count + 1, rotates, constant, earlier, previous =>
    let key := nextRoundKey (scheduleWord rotates constant previous) earlier
    key :: schedule count (!rotates) (if rotates then timesX constant else constant) previous key

/-- The first and second half of a key, which are the first two round keys. -/
def halves (key : Bytes 32) : Block × Block :=
  (Bytes.ofList (key.toList.take 16) (by simp), Bytes.ofList (key.toList.drop 16) (by simp))

/-- The fourteen round keys after the first. -/
def roundKeys (key : Bytes 32) : List Block :=
  (halves key).2 :: schedule 13 true 1 (halves key).1 (halves key).2

/-! ## Encryption -/

/-- A round: the bytes are replaced, moved and mixed, and the round key is added. -/
def round (key s : Block) : Block := addRoundKey key (mixColumns (shiftRows (subBytes s)))

/-- The last round mixes no columns. -/
def finalRound (key s : Block) : Block := addRoundKey key (shiftRows (subBytes s))

/-- One round per round key, the last of them final. -/
def rounds : List Block → Block → Block
  | [], s => s
  | [key], s => finalRound key s
  | key :: next :: rest, s => rounds (next :: rest) (round key s)

/-- AES-256 of one block. -/
def encrypt (key : Bytes 32) : BlockCipher :=
  let keys := roundKeys key
  let whitening := (halves key).1
  fun block => rounds keys (addRoundKey whitening block)

end Aes
end Cashpoint
