/-
# A frame changed at one place does not open

A frame is sealed, written, and changed at one place: in its tag, in its vector, or in one of
the aligned blocks of its ciphertext (`Tampered`). What has become of it is still read as a
frame, and that frame is refused for its tag (`tampering_is_detected`). So is a reply that was
not touched, against a request that differs from its own in one of the two blocks to which the
reply is bound.

This is no matter of chance: it holds for every key under which the zero block is not encrypted
to itself, and for every vector, plaintext and change.
-/

import Cashpoint.Proofs.Cipher.Permutation
import Cashpoint.Proofs.Cipher.Tag
import Cashpoint.Proofs.Frame.Wire

namespace Cashpoint
namespace Frame

/-- A datagram with a ciphertext of `n` bytes, changed at one place. -/
inductive Tampered (n : ℕ) (datagram altered : List UInt8) : Prop
  /-- Some bytes of the tag are others. -/
  | tag (h : Altered (headerSize + n + 12) (headerSize + n + 12 + 16) datagram altered)
  /-- Some bytes of the vector are others. -/
  | vector (h : Altered (headerSize + n) (headerSize + n + 12) datagram altered)
  /-- Some bytes of the `k`-th block of the ciphertext are others; the last may be shorter. -/
  | block (k : ℕ) (h : Altered (headerSize + 16 * k) (headerSize + min (16 * k + 16) n) datagram altered)

/-- The datagram is read as a frame, and the frame is refused for its tag. -/
def Detected (opening : Frame → Except Error (List UInt8)) (datagram : List UInt8) : Prop :=
  ∃ frame, decode datagram = .ok frame ∧ opening frame = .error .integrity

variable {n : ℕ} {datagram altered : List UInt8} {frame : Frame}

/-- Any change to a single byte behind the header is at one of the three places. -/
theorem Tampered.of_byte (hlength : datagram.length = smallest + n) {i : ℕ} (hheader : headerSize ≤ i)
    (hi : i < datagram.length) {mask : UInt8} (hmask : mask ≠ 0) :
    Tampered n datagram (datagram.modify i (· ^^^ mask)) := by
  have h : Altered i (i + 1) datagram (datagram.modify i (· ^^^ mask)) := .modify hi hmask
  simp only [smallest, headerSize] at hlength hheader
  rcases lt_or_ge i (headerSize + n) with hciphertext | hbehind
  · simp only [headerSize] at hciphertext
    exact .block ((i - 5) / 16) (h.mono (by simp only [headerSize]; omega) (by simp only [headerSize]; omega))
  · rcases lt_or_ge i (headerSize + n + 12) with hvector | htag
    · exact .vector (h.mono hbehind hvector)
    · exact .tag (h.mono htag (by simp only [headerSize]; omega))

/-- Tampering with a datagram does not change its length. -/
theorem Tampered.length_eq (h : Tampered n datagram altered) : altered.length = datagram.length := by
  cases h with
  | tag h | vector h | block k h => exact h.length_eq

/-- The header is not touched. -/
theorem Tampered.take_headerSize_eq (h : Tampered n datagram altered) :
    altered.take headerSize = datagram.take headerSize := by
  cases h with
  | tag h | vector h | block k h => exact h.take_eq (by omega)

/-- A written frame, cut, is the frame. -/
theorem exists_cut_eq (h : frame.encode = .ok datagram) :
    ∃ hlength, cut datagram frame.ciphertext.length hlength = frame := by
  have hlength := length_of_encode h
  refine ⟨hlength, ?_⟩
  unfold encode at h
  split at h
  · simp at h
  · obtain rfl := Except.ok.inj h
    exact cut_eq rfl _ (by simp [headerSize]) hlength

/-- **What is read depends on the length and the header**: a datagram with those of a written
frame is cut at the same places. -/
theorem decode_of_take_headerSize (h : frame.encode = .ok datagram) (hlength : altered.length = datagram.length)
    (hheader : altered.take headerSize = datagram.take headerSize) :
    ∃ hcut, decode altered = .ok (cut altered frame.ciphertext.length hcut) := by
  have hcut := hlength.trans (length_of_encode h)
  refine ⟨hcut, decode_of_encode ?_⟩
  unfold encode at h ⊢
  rw [length_cut]
  split at h
  · simp at h
  · rename_i hsmall
    rw [if_neg hsmall]
    obtain rfl := Except.ok.inj h
    rw [List.take_left' (by simp [headerSize])] at hheader
    rw [← hheader, header_append_cut]

/-! ## The parts that a change leaves alone -/

/-- The vector stands behind the ciphertext. -/
theorem toList_iv_cut (h : datagram.length = smallest + n) :
    (cut datagram n h).iv.toList = (datagram.drop (headerSize + n)).take 12 := by
  rw [cut, Bytes.toList_ofList]

/-- The tag stands behind the vector. -/
theorem toList_tag_cut (h : datagram.length = smallest + n) :
    (cut datagram n h).tag.toList = datagram.drop (headerSize + n + 12) := by
  rw [cut, Bytes.toList_ofList]

section Parts

variable {start stop : ℕ} (h : Altered start stop datagram altered) (hlength : datagram.length = smallest + n)
  (hcut : altered.length = smallest + n)

include h

/-- Behind the ciphertext, an alteration leaves the ciphertext as it is. -/
theorem ciphertext_cut_eq (hstart : headerSize + n ≤ start) :
    (cut altered n hcut).ciphertext = (cut datagram n hlength).ciphertext := h.slice_eq hstart

/-- Beside the vector, an alteration leaves the vector as it is. -/
theorem iv_cut_eq (hout : headerSize + n + 12 ≤ start ∨ stop ≤ headerSize + n) :
    (cut altered n hcut).iv = (cut datagram n hlength).iv := by
  apply Vector.toList_inj.1
  rw [toList_iv_cut, toList_iv_cut]
  rcases hout with hstart | hstop
  · exact h.slice_eq hstart
  · rw [h.drop_eq hstop]

/-- In front of the tag, an alteration leaves the tag as it is. -/
theorem tag_cut_eq (hstop : stop ≤ headerSize + n + 12) :
    (cut altered n hcut).tag = (cut datagram n hlength).tag := by
  apply Vector.toList_inj.1
  rw [toList_tag_cut, toList_tag_cut, h.drop_eq hstop]

end Parts

/-! ## The part that is changed -/

variable {key : Bytes 32} {aad : List UInt8}

/-- **A change at one place leaves a frame that bears a wrong tag.** -/
theorem tag_ne_of_tampered (hkey : Aes.encrypt key (Bytes.zero 16) ≠ Bytes.zero 16)
    (htag : frame.tag = Gcm.tag (Aes.encrypt key) frame.iv aad frame.ciphertext)
    (hlength : datagram.length = smallest + n) (hframe : cut datagram n hlength = frame)
    (h : Tampered n datagram altered) (hcut : altered.length = smallest + n) :
    (cut altered n hcut).tag ≠
      Gcm.tag (Aes.encrypt key) (cut altered n hcut).iv aad (cut altered n hcut).ciphertext := by
  subst hframe
  cases h with
  | tag h =>
    rw [ciphertext_cut_eq h hlength hcut (by omega), iv_cut_eq h hlength hcut (.inl le_rfl), ← htag]
    intro hsame
    have hdrop : Altered 0 16 (datagram.drop (headerSize + n + 12)) (altered.drop (headerSize + n + 12)) :=
      h.drop
    exact hdrop.ne (by rw [← toList_tag_cut hcut, ← toList_tag_cut hlength, hsame])
  | vector h =>
    rw [ciphertext_cut_eq h hlength hcut le_rfl, tag_cut_eq h hlength hcut le_rfl, htag]
    refine Gcm.tag_ne_of_iv Aes.encrypt_inj fun hsame => ?_
    have hdrop : Altered 0 12 (datagram.drop (headerSize + n)) (altered.drop (headerSize + n)) := h.drop
    exact (hdrop.take le_rfl).ne (by rw [← toList_iv_cut hcut, ← toList_iv_cut hlength, hsame])
  | block k h =>
    have hciphertext : Altered (16 * k) (min (16 * k + 16) n) (cut datagram n hlength).ciphertext
        (cut altered n hcut).ciphertext := h.drop.take (Nat.min_le_right ..)
    rw [iv_cut_eq h hlength hcut (.inr (by omega)), tag_cut_eq h hlength hcut (by omega), htag]
    exact Gcm.tag_ne_of_ciphertext hkey (hciphertext.mono le_rfl (Nat.min_le_left ..))

/-- A sealed frame in writing, changed at one place, is read as a frame that does not open. -/
theorem detected_of_tampered (hkey : Aes.encrypt key (Bytes.zero 16) ≠ Bytes.zero 16) {iv : Bytes 12}
    {plaintext : List UInt8} (hseal : sealWith key iv aad plaintext = .ok frame)
    (hdatagram : frame.encode = .ok datagram) (h : Tampered plaintext.length datagram altered) :
    Detected (fun frame => Gcm.decrypt (Aes.encrypt key) frame.iv aad frame.ciphertext frame.tag) altered := by
  have hn : frame.ciphertext.length = plaintext.length := length_of_sealWith hseal
  rw [← hn] at h
  obtain ⟨hlength, hframe⟩ := exists_cut_eq hdatagram
  obtain ⟨hcut, hdecode⟩ := decode_of_take_headerSize hdatagram h.length_eq h.take_headerSize_eq
  exact ⟨_, hdecode, Gcm.decrypt_eq_error_iff.2
    ⟨tag_ne_of_tampered hkey (tag_of_sealWith hseal) hlength hframe h hcut, rfl⟩⟩

/-- So it is with any bits of a single byte behind the header changed. -/
theorem detected_of_byte (hkey : Aes.encrypt key (Bytes.zero 16) ≠ Bytes.zero 16) {iv : Bytes 12}
    {plaintext : List UInt8} (hseal : sealWith key iv aad plaintext = .ok frame)
    (hdatagram : frame.encode = .ok datagram) {i : ℕ} (hheader : headerSize ≤ i) (hi : i < datagram.length)
    {mask : UInt8} (hmask : mask ≠ 0) :
    Detected (fun frame => Gcm.decrypt (Aes.encrypt key) frame.iv aad frame.ciphertext frame.tag)
      (datagram.modify i (· ^^^ mask)) := by
  have hlength : datagram.length = smallest + plaintext.length := by
    rw [length_of_encode hdatagram, length_of_sealWith hseal]
  exact detected_of_tampered hkey hseal hdatagram (.of_byte hlength hheader hi hmask)

/-- A reply that was not touched, against a request of which the reply is bound to another block. -/
theorem detected_of_binding (hkey : Aes.encrypt key (Bytes.zero 16) ≠ Bytes.zero 16) {iv : Bytes 12}
    {request other reply : Frame} {plaintext : List UInt8}
    (hseal : sealReply key iv request plaintext = .ok reply) (hdatagram : reply.encode = .ok datagram)
    (h : Altered 0 16 request.binding other.binding ∨ Altered 16 28 request.binding other.binding) :
    Detected (fun frame => frame.openReply key other) datagram := by
  refine ⟨reply, decode_of_encode hdatagram, Gcm.decrypt_eq_error_iff.2 ⟨?_, rfl⟩⟩
  rw [tag_of_sealWith hseal]
  rcases h with hfirst | hsecond
  · exact Gcm.tag_ne_of_aad (k := 0) hkey hfirst
  · exact Gcm.tag_ne_of_aad (k := 1) hkey (hsecond.mono le_rfl (by omega))

/-- **Tampering with a frame at one place is detected.** Under a key that does not encrypt the zero
block to itself, every plaintext that fits is sealed and written. Whatever is then changed in the
tag, in the vector or in one aligned block of the ciphertext, and whatever bits of a single byte
behind the header: the datagram is still read as a frame, and the frame is refused for its tag. The
same holds of a reply, opened against its request; and the reply itself is refused against a request
that differs in the first block of what it is bound to, the vector and four bytes of the tag, or
in the second, the other twelve. -/
theorem tampering_is_detected {key : Bytes 32} (hkey : Aes.encrypt key (Bytes.zero 16) ≠ Bytes.zero 16)
    (iv : Bytes 12) {plaintext : List UInt8} (hsize : plaintext.length ≤ largestPlaintext) :
    (∃ frame datagram, sealPlain key iv plaintext = .ok frame ∧ frame.encode = .ok datagram ∧
      (∀ altered, Tampered plaintext.length datagram altered → Detected (openPlain key) altered) ∧
      ∀ i mask, headerSize ≤ i → i < datagram.length → mask ≠ 0 →
        Detected (openPlain key) (datagram.modify i (· ^^^ mask))) ∧
    ∀ request : Frame, ∃ reply datagram, sealReply key iv request plaintext = .ok reply ∧
      reply.encode = .ok datagram ∧
      (∀ altered, Tampered plaintext.length datagram altered →
        Detected (fun frame => frame.openReply key request) altered) ∧
      (∀ i mask, headerSize ≤ i → i < datagram.length → mask ≠ 0 →
        Detected (fun frame => frame.openReply key request) (datagram.modify i (· ^^^ mask))) ∧
      ∀ other : Frame,
        Altered 0 16 request.binding other.binding ∨ Altered 16 28 request.binding other.binding →
        Detected (fun frame => frame.openReply key other) datagram := by
  constructor
  · obtain ⟨frame, datagram, hseal, hdatagram⟩ := exists_sealWith hsize key iv []
    refine ⟨frame, datagram, hseal, hdatagram, fun altered h => ?_, fun i mask hheader hi hmask => ?_⟩
    · exact detected_of_tampered hkey hseal hdatagram h
    · exact detected_of_byte hkey hseal hdatagram hheader hi hmask
  · intro request
    obtain ⟨reply, datagram, hseal, hdatagram⟩ := exists_sealWith hsize key iv request.binding
    refine ⟨reply, datagram, hseal, hdatagram, fun altered h => ?_, fun i mask hheader hi hmask => ?_,
      fun other h => ?_⟩
    · exact detected_of_tampered hkey hseal hdatagram h
    · exact detected_of_byte hkey hseal hdatagram hheader hi hmask
    · exact detected_of_binding hkey hseal hdatagram h

/-- A frame of two bytes under the key of zeros, of which the ciphertext is one block that is cut
short. -/
theorem tampering_is_detected_zero_key :
    ∃ frame datagram, sealPlain (Bytes.zero 32) (Bytes.zero 12) [79, 75] = .ok frame ∧
      frame.encode = .ok datagram ∧ datagram.length = 35 ∧
      ∀ i mask, 5 ≤ i → i < 35 → mask ≠ 0 →
        Detected (openPlain (Bytes.zero 32)) (datagram.modify i (· ^^^ mask)) := by
  have hkey : Aes.encrypt (Bytes.zero 32) (Bytes.zero 16) ≠ Bytes.zero 16 := by decide +kernel
  have hsize : ([79, 75] : List UInt8).length ≤ largestPlaintext := by decide
  obtain ⟨⟨frame, datagram, hseal, hdatagram, -, hbyte⟩, -⟩ :=
    tampering_is_detected hkey (Bytes.zero 12) hsize
  have hlength : datagram.length = 35 := by
    rw [length_of_encode hdatagram, length_of_sealWith hseal]
    rfl
  exact ⟨frame, datagram, hseal, hdatagram, hlength, fun i mask hheader hi => hbyte i mask hheader (by omega)⟩

end Frame
end Cashpoint
