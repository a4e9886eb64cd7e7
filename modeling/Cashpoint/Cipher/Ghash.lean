/-
# GHASH

The keyed hash under a GCM tag. A block is read as an element of the field of
`2^128` elements, its leftmost bit being the coefficient of `1`, and the blocks
`b₁, …, bₙ` hash under the key `h` to `b₁ hⁿ + … + bₙ h`.

The product is written for the proof as much as for the run: `timesX` is linear,
and `mul` adds the shifted copies of one factor that the bits of the other select.
-/

import Cashpoint.Cipher.Aes

namespace Cashpoint
namespace Ghash

/-- An element of the field of `2^128` elements, modulo `x^128 + x^7 + x^2 + x + 1`. The most
significant bit is the coefficient of `1`, the least significant that of `x^127`. -/
abbrev Element := BitVec 128

/-- The element `x^7 + x^2 + x + 1`, to which `x^128` reduces. -/
def reduced : Element := 0xe1000000000000000000000000000000#128

/-- Product with `x`. -/
def timesX (a : Element) : Element :=
  if a.getLsbD 0 then (a >>> 1) ^^^ reduced else a >>> 1

/-- The sum of `x^i a` over the places `i` at which the list holds `true`. -/
def sumOfShifts : List Bool → Element → Element
  | [], _ => 0
  | bit :: bits, a => (if bit then a else 0) ^^^ sumOfShifts bits (timesX a)

/-- The coefficients of an element, from that of `1` to that of `x^127`. -/
def coefficients (a : Element) : List Bool := List.ofFn fun i : Fin 128 => a.getMsbD i

/-- The product of two elements. -/
def mul (a b : Element) : Element := sumOfShifts (coefficients a) b

/-- The element that a block stands for. -/
def ofBlock (block : Block) : Element := BitVec.ofNat 128 (ofBigEndian block.toList)

/-- The block of an element. -/
def toBlock (a : Element) : Block := bigEndian 16 a.toNat

/-- A block is written as it was read. -/
theorem toBlock_ofBlock (block : Block) : toBlock (ofBlock block) = block := by
  have h := ofBigEndian_lt block.toList
  simp only [Vector.length_toList] at h
  have hn : (ofBlock block).toNat = ofBigEndian block.toList := Nat.mod_eq_of_lt h
  rw [toBlock, hn, bigEndian_ofBigEndian]

/-- Different blocks are different elements. -/
theorem ofBlock_inj {a b : Block} (h : ofBlock a = ofBlock b) : a = b := by
  rw [← toBlock_ofBlock a, h, toBlock_ofBlock]

/-- Horner's rule for the hash of a list of elements under a key. -/
def hash (key : Element) (elements : List Element) : Element :=
  elements.foldl (fun sum a => mul (sum ^^^ a) key) 0

/-- The first sixteen bytes, completed with zeros. -/
def firstBlock (bytes : List UInt8) : Block := Vector.ofFn fun i => bytes.getD i.val 0

/-- Bytes cut into blocks, the last completed with zeros. -/
def blocks : List UInt8 → List Block
  | [] => []
  | byte :: rest => firstBlock (byte :: rest) :: blocks (rest.drop 15)
termination_by bytes => bytes.length
decreasing_by simp only [List.length_drop, List.length_cons]; omega

/-- The lengths in bits of the associated data and of the ciphertext. -/
def lengthBlock (aad ciphertext : List UInt8) : Block :=
  Vector.cast (by decide) (bigEndian 8 (8 * aad.length) ++ bigEndian 8 (8 * ciphertext.length))

/-- What GCM hashes: the blocks of the associated data, those of the ciphertext, and the lengths. -/
def input (aad ciphertext : List UInt8) : List Block :=
  blocks aad ++ blocks ciphertext ++ [lengthBlock aad ciphertext]

end Ghash
end Cashpoint
