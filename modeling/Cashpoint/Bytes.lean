/-
# Byte strings

Data of any length is a `List UInt8`. A block, key, IV or tag, whose length is
fixed by the format it stands in, is a `Bytes n`.

Numbers inside a format are written with their least significant byte first
(`littleEndian`) or last (`bigEndian`). Reading undoes writing for every number
that fits (`ofLittleEndian_littleEndian`, `ofBigEndian_bigEndian`).
-/

namespace Cashpoint

/-- A string of exactly `n` bytes. -/
abbrev Bytes (n : Nat) := Vector UInt8 n

namespace Bytes

/-- The bytes of a list whose length is known. -/
def ofList {n : Nat} (bytes : List UInt8) (h : bytes.length = n) : Bytes n :=
  ⟨bytes.toArray, by simpa using h⟩

/-- The bytes of a list are the bytes in it. -/
@[simp] theorem toList_ofList {n : Nat} (bytes : List UInt8) (h : bytes.length = n) :
    (ofList bytes h).toList = bytes := by
  simp [ofList, Vector.toList]

/-- A byte string is that of its bytes. -/
@[simp] theorem ofList_toList {n : Nat} (b : Bytes n) (h : b.toList.length = n) :
    ofList b.toList h = b := by
  apply Vector.toList_inj.1
  simp

/-- The bytes of a list, if there are exactly `n`. -/
def ofList? (n : Nat) (bytes : List UInt8) : Option (Bytes n) :=
  if h : bytes.length = n then some (ofList bytes h) else none

/-- `n` zero bytes. -/
def zero (n : Nat) : Bytes n := Vector.replicate n 0

/-- Bitwise exclusive or, byte by byte. -/
def xor {n : Nat} (a b : Bytes n) : Bytes n := Vector.zipWith (· ^^^ ·) a b

/-- A byte that is added twice is gone. -/
theorem byte_xor_cancel (a b : UInt8) : (a ^^^ b) ^^^ b = a := by
  rw [UInt8.xor_assoc, UInt8.xor_self, UInt8.xor_zero]

/-- What is added twice is gone. -/
theorem xor_xor_cancel {n : Nat} (a b : Bytes n) : xor (xor a b) b = a := by
  ext i hi
  simp only [xor, Vector.getElem_zipWith, byte_xor_cancel]

/-- What was added can be cancelled on the right. -/
theorem xor_right_inj {n : Nat} {a b c : Bytes n} (h : xor a c = xor b c) : a = b := by
  rw [← xor_xor_cancel a c, h, xor_xor_cancel]

/-- What was added can be cancelled on the left. -/
theorem xor_left_inj {n : Nat} {a b c : Bytes n} (h : xor a b = xor a c) : b = c := by
  have hcomm (d : Bytes n) : xor a d = xor d a := by
    ext i hi
    simp only [xor, Vector.getElem_zipWith, UInt8.xor_comm]
  rw [hcomm, hcomm] at h
  exact xor_right_inj h

/-- The number of byte strings of length `n`. -/
def count : Nat → Nat
  | 0 => 1
  | n + 1 => 256 * count n

end Bytes

/-- The last `n` base-256 digits of `value`, least significant first. -/
def littleEndian : Nat → Nat → List UInt8
  | 0, _ => []
  | n + 1, value => UInt8.ofNat value :: littleEndian n (value / 256)

/-- A number takes as many bytes as it is given. -/
@[simp] theorem length_littleEndian (n value : Nat) : (littleEndian n value).length = n := by
  induction n generalizing value with
  | zero => rfl
  | succ n ih => simp [littleEndian, ih]

/-- The number whose base-256 digits, least significant first, are the bytes. -/
def ofLittleEndian : List UInt8 → Nat
  | [] => 0
  | byte :: rest => byte.toNat + 256 * ofLittleEndian rest

/-- The number in some bytes is one that fits into as many. -/
theorem ofLittleEndian_lt (bytes : List UInt8) : ofLittleEndian bytes < Bytes.count bytes.length := by
  induction bytes with
  | nil => simp [ofLittleEndian, Bytes.count]
  | cons byte rest ih =>
    have := byte.toNat_lt
    simp only [ofLittleEndian, List.length_cons, Bytes.count]
    omega

/-- A number is read back as far as it fits. -/
theorem ofLittleEndian_littleEndian (n value : Nat) :
    ofLittleEndian (littleEndian n value) = value % Bytes.count n := by
  induction n generalizing value with
  | zero => simp [littleEndian, ofLittleEndian, Bytes.count, Nat.mod_one]
  | succ n ih =>
    have byte : (UInt8.ofNat value).toNat = value % 256 := UInt8.toNat_ofNat'
    simp only [littleEndian, ofLittleEndian, ih, byte]
    rw [Bytes.count, Nat.mod_mul]

/-- Bytes are written back as they were. -/
theorem littleEndian_ofLittleEndian (bytes : List UInt8) :
    littleEndian bytes.length (ofLittleEndian bytes) = bytes := by
  induction bytes with
  | nil => rfl
  | cons byte rest ih =>
    have hb := byte.toNat_lt
    have hd : (byte.toNat + 256 * ofLittleEndian rest) / 256 = ofLittleEndian rest := by omega
    simp only [ofLittleEndian, List.length_cons, littleEndian, hd, ih]
    congr 1
    apply UInt8.toNat_inj.1
    simp only [UInt8.toNat_ofNat']
    omega

/-- `value` as `n` bytes, most significant first. -/
def bigEndian (n value : Nat) : Bytes n :=
  Bytes.ofList (littleEndian n value).reverse (by simp)

/-- The number whose base-256 digits, most significant first, are the bytes. -/
def ofBigEndian (bytes : List UInt8) : Nat := ofLittleEndian bytes.reverse

/-- The number in some bytes is one that fits into as many. -/
theorem ofBigEndian_lt (bytes : List UInt8) : ofBigEndian bytes < Bytes.count bytes.length := by
  simpa [ofBigEndian] using ofLittleEndian_lt bytes.reverse

/-- A number is read back as far as it fits. -/
theorem ofBigEndian_bigEndian (n value : Nat) :
    ofBigEndian (bigEndian n value).toList = value % Bytes.count n := by
  simp [ofBigEndian, bigEndian, ofLittleEndian_littleEndian]

/-- Bytes are written back as they were. -/
theorem bigEndian_ofBigEndian {n : Nat} (b : Bytes n) : bigEndian n (ofBigEndian b.toList) = b := by
  apply Vector.toList_inj.1
  have := littleEndian_ofLittleEndian b.toList.reverse
  simp only [List.length_reverse, Vector.length_toList] at this
  simp [bigEndian, ofBigEndian, this]

end Cashpoint
