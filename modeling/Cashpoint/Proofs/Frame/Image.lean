/-
# What the decoder accepts

The decoder accepts just what the encoder writes, and each undoes the other
(`decode_inverts_encode`). Which datagrams these are is said by the length and the first five
bytes alone (`exists_decode_iff`), the declared length being a signed number (`signed`).

`decodeChecked` is the decoder with a check in front of every access to the datagram: an index,
a slice or a copy into a place of fixed size that does not fit gives `none`. It never does
(`decodeChecked_eq`), whatever length the header claims.
-/

import Cashpoint.Proofs.Frame.Wire

namespace Cashpoint
namespace Frame

/-! ## The declared length as a signed number -/

/-- Four bytes, the least significant first, as a signed number. -/
def signed (bytes : List UInt8) : Int := (BitVec.ofNat 32 (ofLittleEndian bytes)).toInt

variable {datagram : List UInt8}

/-- The declared length is a number of 32 bits. -/
theorem declaredLength_lt (h : headerSize ≤ datagram.length) : declaredLength datagram < 4294967296 := by
  have hfour : ((datagram.drop 1).take 4).length = 4 := by
    simp only [headerSize] at h
    rw [List.length_take, List.length_drop]
    omega
  have hlt := ofLittleEndian_lt ((datagram.drop 1).take 4)
  rwa [hfour] at hlt

/-- From `2^31` on the length is negative, and below it is what it is. -/
theorem signed_eq (h : headerSize ≤ datagram.length) : signed ((datagram.drop 1).take 4) =
    if declaredLength datagram < negativeFrom then (declaredLength datagram : Int)
    else declaredLength datagram - 4294967296 := by
  have hnat : (BitVec.ofNat 32 (declaredLength datagram)).toNat = declaredLength datagram := by
    rw [BitVec.toNat_ofNat, Nat.mod_eq_of_lt (declaredLength_lt h)]
  have hsigned : signed ((datagram.drop 1).take 4) = (BitVec.ofNat 32 (declaredLength datagram)).toInt := rfl
  rw [hsigned, BitVec.toInt_eq_toNat_cond, hnat]
  by_cases hpos : declaredLength datagram < negativeFrom
  · rw [if_pos hpos, if_pos (by simp only [negativeFrom] at hpos; omega)]
  · rw [if_neg hpos, if_neg (by simp only [negativeFrom] at hpos; omega)]
    rfl

/-- Read with a sign, the declared length is negative from `2^31` on. -/
theorem signed_neg_iff (h : headerSize ≤ datagram.length) :
    signed ((datagram.drop 1).take 4) < 0 ↔ declaredLength datagram ≥ negativeFrom := by
  have hlt := declaredLength_lt h
  rw [signed_eq h]
  split <;> omega

/-! ## The accepted datagrams -/

/-- **Which datagrams are frames.** -/
theorem exists_decode_iff (datagram : List UInt8) : (∃ frame, decode datagram = .ok frame) ↔
    datagram.head? = some version ∧ datagram.length = smallest + declaredLength datagram ∧
      declaredLength datagram ≤ largestPlaintext := by
  constructor
  · rintro ⟨frame, h⟩
    obtain ⟨hversion, hsmall, hlength, -⟩ := decode_eq_ok_iff_cut.1 h
    exact ⟨hversion, hlength, hsmall⟩
  · rintro ⟨hversion, hlength, hsmall⟩
    exact ⟨_, decode_eq_ok_iff_cut.2 ⟨hversion, hsmall, hlength, rfl⟩⟩

/-! ## No access is out of range -/

/-- The bytes between two positions that are in order and not behind the end. -/
def slice? (bytes : List UInt8) (start stop : Nat) : Option (List UInt8) :=
  if start ≤ stop ∧ stop ≤ bytes.length then some ((bytes.drop start).take (stop - start)) else none

/-- The bytes between two positions are there, if the datagram reaches that far. -/
theorem slice?_eq {bytes : List UInt8} {start stop n : Nat} (hstop : stop = start + n)
    (h : stop ≤ bytes.length) : slice? bytes start stop = some ((bytes.drop start).take n) := by
  subst hstop
  rw [slice?, if_pos ⟨Nat.le_add_right .., h⟩, Nat.add_sub_cancel_left]

/-- The bytes between two positions, copied to a place for exactly `n` bytes. -/
def copy? (n : Nat) (bytes : List UInt8) (start stop : Nat) : Option (Bytes n) :=
  (slice? bytes start stop).bind (Bytes.ofList? n)

/-- So is the copy of them. -/
theorem copy?_eq {bytes : List UInt8} {start stop n : Nat} (hstop : stop = start + n)
    (h : stop ≤ bytes.length) :
    copy? n bytes start stop = some (Bytes.ofList ((bytes.drop start).take n)
      (by rw [List.length_take, List.length_drop]; omega)) := by
  rw [copy?, slice?_eq hstop h, Option.bind_some, Bytes.ofList?, dif_pos]

/-- The frame in a datagram, with every access to the datagram checked: `none` is an access that
is out of range. -/
def decodeChecked (datagram : List UInt8) : Option (Except Error Frame) :=
  if datagram.length < smallest then some (.error (.frame .tooShort))
  else if datagram.length > largest then some (.error (.frame .tooLong))
  else do
    let first ← datagram[0]?
    if first ≠ version then some (.error (.frame .unknownVersion))
    else
      let field ← copy? 4 datagram 1 headerSize
      let declared := signed field.toList
      if declared < 0 then some (.error (.frame .negativeLength))
      else
        let length := declared.toNat
        if length > largestPlaintext then some (.error (.frame .declaredTooLarge))
        else if datagram.length ≠ smallest + length then some (.error (.frame .lengthMismatch))
        else
          let vectorStart := headerSize + length
          let tagStart := vectorStart + 12
          let iv ← copy? 12 datagram vectorStart tagStart
          let tag ← copy? 16 datagram tagStart datagram.length
          let ciphertext ← slice? datagram headerSize vectorStart
          some (.ok { ciphertext, iv, tag })

/-- The cuts behind the header, for a declared length that is that of the datagram. -/
theorem copies_eq_cut {length : Nat} (h : datagram.length = smallest + length) :
    copy? 12 datagram (headerSize + length) (headerSize + length + 12) = some (cut datagram length h).iv ∧
    copy? 16 datagram (headerSize + length + 12) datagram.length = some (cut datagram length h).tag ∧
    slice? datagram headerSize (headerSize + length) = some (cut datagram length h).ciphertext := by
  have hstop : datagram.length = headerSize + length + 12 + 16 := by
    simp only [smallest] at h
    omega
  have hall : (datagram.drop (headerSize + length + 12)).take 16 = datagram.drop (headerSize + length + 12) :=
    List.take_of_length_le (by rw [List.length_drop]; omega)
  have htag : copy? 16 datagram (headerSize + length + 12) datagram.length = some _ :=
    copy?_eq hstop (Nat.le_refl _)
  simp only [hall] at htag
  exact ⟨copy?_eq rfl (by omega), htag, slice?_eq rfl (by omega)⟩

/-- **No access of the decoder is out of range.** -/
theorem decodeChecked_eq (datagram : List UInt8) : decodeChecked datagram = some (decode datagram) := by
  unfold decodeChecked decode
  by_cases hshort : datagram.length < smallest
  · rw [if_pos hshort, if_pos hshort]
  by_cases hlong : datagram.length > largest
  · rw [if_neg hshort, if_pos hlong, if_neg hshort, if_pos hlong]
  have hheader : headerSize ≤ datagram.length := by simp only [smallest] at hshort; omega
  rw [if_neg hshort, if_neg hlong, if_neg hshort, if_neg hlong]
  obtain ⟨first, hfirst⟩ : ∃ first, datagram.head? = some first :=
    Option.isSome_iff_exists.1 (List.isSome_head?.2 (by rintro rfl; simp [headerSize] at hheader))
  rw [← List.head?_eq_getElem?, hfirst, Option.bind_eq_bind, Option.bind_some]
  by_cases hversion : first = version
  case neg => rw [if_pos hversion, if_pos (by simpa using hversion)]
  have hfield : copy? 4 datagram 1 headerSize = some _ := copy?_eq rfl hheader
  rw [if_neg (not_not_intro hversion), if_neg (by simpa using hversion), hfield, Option.bind_eq_bind,
    Option.bind_some, Bytes.toList_ofList]
  by_cases hnegative : declaredLength datagram ≥ negativeFrom
  case pos => rw [if_pos ((signed_neg_iff hheader).2 hnegative), if_pos hnegative]
  have hdeclared : (signed ((datagram.drop 1).take 4)).toNat = declaredLength datagram := by
    rw [signed_eq hheader, if_pos (Nat.not_le.1 hnegative), Int.toNat_natCast]
  rw [if_neg (fun h => hnegative ((signed_neg_iff hheader).1 h)), if_neg hnegative]
  simp only [hdeclared]
  by_cases hlarge : declaredLength datagram > largestPlaintext
  case pos => rw [if_pos hlarge, if_pos hlarge]
  rw [if_neg hlarge, if_neg hlarge]
  by_cases hlength : datagram.length = smallest + declaredLength datagram
  case neg => rw [if_pos hlength, dif_neg hlength]
  obtain ⟨hiv, htag, hciphertext⟩ := copies_eq_cut hlength
  rw [if_neg (not_not_intro hlength), dif_pos hlength, hiv, htag, hciphertext]
  rfl

/-! ## Encoder and decoder -/

/-- Two datagrams are never the same frame. -/
theorem decode_inj {a b : List UInt8} {frame : Frame} (ha : decode a = .ok frame) (hb : decode b = .ok frame) :
    a = b :=
  Except.ok.inj ((decode_eq_ok_iff.1 ha).symm.trans (decode_eq_ok_iff.1 hb))

/-- The datagrams that are frames, with the declared length read as a signed number. -/
theorem exists_decode_iff_signed (datagram : List UInt8) : (∃ frame, decode datagram = .ok frame) ↔
    33 ≤ datagram.length ∧ datagram.head? = some 1 ∧
      signed ((datagram.drop 1).take 4) = (datagram.length : Int) - 33 ∧ (datagram.length : Int) - 33 ≤ 1024 := by
  rw [exists_decode_iff]
  by_cases hheader : headerSize ≤ datagram.length
  case neg =>
    constructor
    · rintro ⟨-, hlength, -⟩
      simp only [smallest] at hlength
      omega
    · rintro ⟨hsize, -⟩
      simp only [headerSize] at hheader
      omega
  have hlt := declaredLength_lt hheader
  have hfrom : negativeFrom = 2147483648 := rfl
  rw [signed_eq hheader]
  simp only [smallest, headerSize, largestPlaintext, version]
  constructor
  · rintro ⟨hversion, hlength, hsmall⟩
    refine ⟨by omega, hversion, ?_, by omega⟩
    rw [if_pos (by omega)]
    omega
  · rintro ⟨hsize, hversion, hlength, hsmall⟩
    refine ⟨hversion, ?_⟩
    split at hlength <;> omega

/-- **The decoder accepts exactly what the encoder writes, and each undoes the other.** A frame with
at most 1024 bytes of ciphertext is written with 33 bytes more and reads back, and no larger one is
written. Any string of bytes is refused as malformed, or is read as a frame whose written form it
is. The latter holds just if there are 33 bytes, the first is 1, and the next four are, as a signed
number, what the datagram has beyond 33, at most 1024. No access of the decoder is out of range,
and no two strings are read as one frame. -/
theorem decode_inverts_encode :
    (∀ frame : Frame, frame.ciphertext.length ≤ 1024 → ∃ datagram, frame.encode = .ok datagram ∧
      datagram.length = 33 + frame.ciphertext.length ∧ decode datagram = .ok frame) ∧
    (∀ frame : Frame, frame.ciphertext.length > 1024 → ∃ fault, frame.encode = .error (.frame fault)) ∧
    (∀ datagram, (∃ fault, decode datagram = .error (.frame fault)) ∨
      ∃ frame, decode datagram = .ok frame ∧ frame.encode = .ok datagram) ∧
    (∀ datagram, (∃ frame, decode datagram = .ok frame) ↔
      33 ≤ datagram.length ∧ datagram.head? = some 1 ∧
      signed ((datagram.drop 1).take 4) = (datagram.length : Int) - 33 ∧ (datagram.length : Int) - 33 ≤ 1024) ∧
    (∀ datagram, decodeChecked datagram = some (decode datagram)) ∧
    ∀ a b frame, decode a = .ok frame → decode b = .ok frame → a = b := by
  refine ⟨fun frame hsmall => ?_, fun frame hlarge => ?_, fun datagram => ?_, exists_decode_iff_signed,
    decodeChecked_eq, fun _ _ _ => decode_inj⟩
  · obtain ⟨datagram, hdatagram⟩ := exists_encode frame hsmall
    exact ⟨datagram, hdatagram, length_of_encode hdatagram, decode_of_encode hdatagram⟩
  · exact ⟨.ciphertextTooLarge, if_pos hlarge⟩
  · cases h : decode datagram with
    | error e =>
      obtain ⟨fault, rfl⟩ := decode_error h
      exact .inl ⟨fault, rfl⟩
    | ok frame => exact .inr ⟨frame, rfl, encode_of_decode h⟩

/-- A frame of two bytes; and a header that claims `-1`, which is the number `2^32 - 1` when the
sign is overlooked. -/
theorem decode_inverts_encode_short :
    let frame : Frame := { ciphertext := [79, 75], iv := Bytes.zero 12, tag := Bytes.zero 16 }
    (∃ datagram, frame.encode = .ok datagram ∧ datagram.length = 35 ∧ decode datagram = .ok frame) ∧
    ¬ ∃ frame, decode ([1, 255, 255, 255, 255] ++ List.replicate 28 0) = .ok frame := by
  intro frame
  obtain ⟨hwrite, -, -, hiff, -⟩ := decode_inverts_encode
  refine ⟨hwrite _ (by decide), fun h => ?_⟩
  obtain ⟨-, -, hlength, -⟩ := (hiff _).1 h
  exact absurd hlength (by decide)

end Frame
end Cashpoint
