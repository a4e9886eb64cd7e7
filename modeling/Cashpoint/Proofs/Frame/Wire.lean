/-
# Frames over the wire

A datagram is read as a frame just if it is that frame in writing (`decode_eq_ok_iff`).
A plaintext of at most 1024 bytes can be sealed and the frame written
(`exists_sealWith`), and what was sealed opens under the same associated data
(`decrypt_of_sealWith`).

The associated data of a reply is the vector and the tag of the request, nothing else
of it, so a reply opens against every frame that has them (`openReply_congr`).

`opening_undoes_sealing` puts the steps together, from the plaintext to the wire and back.
-/

import Cashpoint.Frame

namespace Cashpoint
namespace Frame

/-- A written frame has the smallest size and its ciphertext more. -/
theorem length_of_encode {frame : Frame} {datagram : List UInt8} (h : frame.encode = .ok datagram) :
    datagram.length = smallest + frame.ciphertext.length := by
  unfold encode at h
  split at h
  · simp at h
  · obtain rfl := Except.ok.inj h
    simp [smallest, headerSize]
    omega

/-- What is cut out of a frame in writing is the frame. -/
theorem cut_eq {frame : Frame} {length : Nat} (hl : length = frame.ciphertext.length)
    (header : List UInt8) (hh : header.length = headerSize) (h) :
    cut (header ++ (frame.ciphertext ++ (frame.iv.toList ++ frame.tag.toList))) length h = frame := by
  subst hl
  have h₁ : (header ++ (frame.ciphertext ++ (frame.iv.toList ++ frame.tag.toList))).drop headerSize =
      frame.ciphertext ++ (frame.iv.toList ++ frame.tag.toList) := List.drop_left' hh
  have h₂ : (header ++ (frame.ciphertext ++ (frame.iv.toList ++ frame.tag.toList))).drop
      (headerSize + frame.ciphertext.length) = frame.iv.toList ++ frame.tag.toList := by
    rw [← List.drop_drop, h₁, List.drop_left]
  have h₃ : (header ++ (frame.ciphertext ++ (frame.iv.toList ++ frame.tag.toList))).drop
      (headerSize + frame.ciphertext.length + 12) = frame.tag.toList := by
    rw [← List.drop_drop, h₂]
    exact List.drop_left' (by simp)
  obtain ⟨ciphertext, iv, tag⟩ := frame
  simp only [cut, h₁, h₂, h₃, List.take_left, mk.injEq, true_and]
  refine ⟨?_, Bytes.ofList_toList tag _⟩
  apply Vector.toList_inj.1
  rw [Bytes.toList_ofList]
  exact List.take_left' (by simp)

/-- **When a datagram is read as a frame**: it has the right version and declares its own length, which is
not too large. The frame is what is cut out at this length. -/
theorem decode_eq_ok_iff_cut {frame : Frame} {datagram : List UInt8} :
    decode datagram = .ok frame ↔ datagram.head? = some version ∧
      declaredLength datagram ≤ largestPlaintext ∧ ∃ h, cut datagram (declaredLength datagram) h = frame := by
  constructor
  · intro h
    unfold decode at h
    -- the five refusals before the last test
    iterate 5
      split at h
      · simp at h
    rename_i _ _ hversion _ hsmall
    split at h
    · rename_i hlength
      exact ⟨Decidable.of_not_not hversion, Nat.not_lt.1 hsmall, hlength, Except.ok.inj h⟩
    · simp at h
  · rintro ⟨hversion, hsmall, hlength, rfl⟩
    rw [decode, if_neg (by omega), if_neg (by rw [largest]; omega), if_neg (not_not_intro hversion),
      if_neg (by simp only [negativeFrom, largestPlaintext] at *; omega), if_neg (Nat.not_lt.2 hsmall),
      dif_pos hlength]

/-- **A written frame reads back.** -/
theorem decode_of_encode {frame : Frame} {datagram : List UInt8} (h : frame.encode = .ok datagram) :
    decode datagram = .ok frame := by
  have hlen := length_of_encode h
  unfold encode at h
  split at h
  · simp at h
  · rename_i hsmall
    obtain rfl := Except.ok.inj h
    have hdeclared : declaredLength (version :: littleEndian 4 frame.ciphertext.length ++
        (frame.ciphertext ++ (frame.iv.toList ++ frame.tag.toList))) = frame.ciphertext.length := by
      have hl : (littleEndian 4 frame.ciphertext.length).length = 4 := length_littleEndian ..
      rw [declaredLength, List.cons_append, List.drop_one, List.tail_cons, List.take_left' hl,
        ofLittleEndian_littleEndian, Nat.mod_eq_of_lt]
      have : Bytes.count 4 = 4294967296 := rfl
      simp only [largestPlaintext] at hsmall
      omega
    refine decode_eq_ok_iff_cut.2 ⟨by simp, ?_, ?_, cut_eq hdeclared _ (by simp [headerSize]) _⟩
    · rw [hdeclared]
      exact Nat.not_lt.1 hsmall
    · rw [hdeclared]
      exact hlen

/-- The ciphertext that is cut out has the declared length. -/
theorem length_cut {datagram : List UInt8} {length : Nat} (h : datagram.length = smallest + length) :
    (cut datagram length h).ciphertext.length = length := by
  simp only [cut, List.length_take, List.length_drop, h, smallest, headerSize]
  omega

/-- The parts of a datagram, put together again. -/
theorem header_append_cut {datagram : List UInt8} {length : Nat} (h : datagram.length = smallest + length) :
    datagram.take headerSize ++ ((cut datagram length h).ciphertext ++
      ((cut datagram length h).iv.toList ++ (cut datagram length h).tag.toList)) = datagram := by
  simp only [cut, Bytes.toList_ofList]
  rw [← List.drop_drop (i := 12), List.take_append_drop, ← List.drop_drop, List.take_append_drop,
    List.take_append_drop]

/-- The header of a datagram with the right version, in terms of its declared length. -/
theorem take_headerSize {datagram : List UInt8} (hlong : headerSize ≤ datagram.length)
    (hversion : datagram.head? = some version) :
    datagram.take headerSize = version :: littleEndian 4 (declaredLength datagram) := by
  obtain ⟨rest, rfl⟩ := List.head?_eq_some_iff.1 hversion
  have hfour : (rest.take 4).length = 4 := by
    simp only [List.length_cons, headerSize] at hlong
    rw [List.length_take]
    omega
  have hread := littleEndian_ofLittleEndian (rest.take 4)
  rw [hfour] at hread
  rw [declaredLength, List.drop_one, List.tail_cons, hread, headerSize, List.take_succ_cons]

/-- **A datagram that is read as a frame is the written form of that frame.** -/
theorem encode_of_decode {frame : Frame} {datagram : List UInt8} (h : decode datagram = .ok frame) :
    frame.encode = .ok datagram := by
  obtain ⟨hversion, hsmall, hlength, rfl⟩ := decode_eq_ok_iff_cut.1 h
  have hheader := take_headerSize (by simp only [smallest] at hlength; omega) hversion
  rw [encode, length_cut, if_neg (Nat.not_lt.2 hsmall), ← hheader, header_append_cut]

/-- **A datagram is read as a frame just if it is that frame in writing.** -/
theorem decode_eq_ok_iff {frame : Frame} {datagram : List UInt8} :
    decode datagram = .ok frame ↔ frame.encode = .ok datagram :=
  ⟨encode_of_decode, decode_of_encode⟩

/-- Different frames are different in writing. -/
theorem encode_inj {a b : Frame} {datagram : List UInt8} (ha : a.encode = .ok datagram)
    (hb : b.encode = .ok datagram) : a = b :=
  Except.ok.inj ((decode_of_encode ha).symm.trans (decode_of_encode hb))

/-- A frame whose ciphertext is not too large can be written. -/
theorem exists_encode (frame : Frame) (h : frame.ciphertext.length ≤ largestPlaintext) :
    ∃ datagram, frame.encode = .ok datagram := by
  rw [encode, if_neg (by omega)]
  exact ⟨_, rfl⟩

/-! ## Sealing and opening -/

/-- A plaintext that is not too large is sealed, and the frame holds its ciphertext, the vector and the tag. -/
theorem sealWith_eq_ok_iff {key : Bytes 32} {iv : Bytes 12} {aad plaintext : List UInt8} {frame : Frame} :
    sealWith key iv aad plaintext = .ok frame ↔ plaintext.length ≤ largestPlaintext ∧
      frame = { ciphertext := (Gcm.encrypt (Aes.encrypt key) iv aad plaintext).1, iv,
                tag := (Gcm.encrypt (Aes.encrypt key) iv aad plaintext).2 } := by
  unfold sealWith
  split
  · rename_i h
    simp only [reduceCtorEq, false_iff]
    rintro ⟨hle, -⟩
    omega
  · rename_i h
    simp only [Except.ok.injEq, @eq_comm _ _ frame]
    refine ⟨fun hf => ⟨by omega, hf⟩, fun hf => hf.2⟩

/-- A sealed frame bears the vector it was sealed under. -/
theorem iv_of_sealWith {key : Bytes 32} {iv : Bytes 12} {aad plaintext : List UInt8} {frame : Frame}
    (h : sealWith key iv aad plaintext = .ok frame) : frame.iv = iv := by
  rw [(sealWith_eq_ok_iff.1 h).2]

/-- The ciphertext is as long as the plaintext. -/
theorem length_of_sealWith {key : Bytes 32} {iv : Bytes 12} {aad plaintext : List UInt8} {frame : Frame}
    (h : sealWith key iv aad plaintext = .ok frame) : frame.ciphertext.length = plaintext.length := by
  rw [(sealWith_eq_ok_iff.1 h).2]
  exact Gcm.length_applyKeyStream ..

/-- A sealed frame bears the tag of its vector, its ciphertext and the associated data. -/
theorem tag_of_sealWith {key : Bytes 32} {iv : Bytes 12} {aad plaintext : List UInt8} {frame : Frame}
    (h : sealWith key iv aad plaintext = .ok frame) :
    frame.tag = Gcm.tag (Aes.encrypt key) frame.iv aad frame.ciphertext := by
  rw [(sealWith_eq_ok_iff.1 h).2]
  rfl

/-- **What was sealed opens** under the key and the associated data it was sealed with. -/
theorem decrypt_of_sealWith {key : Bytes 32} {iv : Bytes 12} {aad plaintext : List UInt8} {frame : Frame}
    (h : sealWith key iv aad plaintext = .ok frame) :
    Gcm.decrypt (Aes.encrypt key) frame.iv aad frame.ciphertext frame.tag = .ok plaintext := by
  rw [(sealWith_eq_ok_iff.1 h).2]
  exact Gcm.decrypt_encrypt ..

/-- What was sealed as a request opens as one. -/
theorem openPlain_of_sealPlain {key : Bytes 32} {iv : Bytes 12} {plaintext : List UInt8} {frame : Frame}
    (h : sealPlain key iv plaintext = .ok frame) : frame.openPlain key = .ok plaintext :=
  decrypt_of_sealWith h

/-- What was sealed as a reply opens for its request. -/
theorem openReply_of_sealReply {key : Bytes 32} {iv : Bytes 12} {request frame : Frame}
    {plaintext : List UInt8} (h : sealReply key iv request plaintext = .ok frame) :
    frame.openReply key request = .ok plaintext :=
  decrypt_of_sealWith h

/-- Whether a frame bears the tag of its own vector and ciphertext, bound to nothing. -/
def Authentic (frame : Frame) (key : Bytes 32) : Prop :=
  frame.tag = Gcm.tag (Aes.encrypt key) frame.iv [] frame.ciphertext

/-- An authentic frame opens. -/
theorem openPlain_of_authentic {key : Bytes 32} {frame : Frame} (h : frame.Authentic key) :
    ∃ plaintext, frame.openPlain key = .ok plaintext :=
  ⟨_, if_pos h⟩

/-- A frame that opens is authentic. -/
theorem authentic_of_openPlain {key : Bytes 32} {frame : Frame} {plaintext : List UInt8}
    (h : frame.openPlain key = .ok plaintext) : frame.Authentic key := by
  unfold openPlain Gcm.decrypt at h
  split at h
  · assumption
  · simp at h

/-- Any other frame is refused for its tag. -/
theorem openPlain_of_not_authentic {key : Bytes 32} {frame : Frame} (h : ¬ frame.Authentic key) :
    frame.openPlain key = .error .integrity :=
  Gcm.decrypt_eq_error_iff.2 ⟨h, rfl⟩

/-- A reply is bound to the vector and the tag of a request. -/
theorem openReply_congr {request other : Frame} (hiv : request.iv = other.iv)
    (htag : request.tag = other.tag) (key : Bytes 32) (frame : Frame) :
    frame.openReply key request = frame.openReply key other := by
  rw [openReply, openReply, binding, binding, hiv, htag]

/-- **A frame holds one plaintext**, whatever request it opens against. -/
theorem plaintext_unique {key : Bytes 32} {frame request other : Frame} {plaintext plaintext' : List UInt8}
    (h : frame.openReply key request = .ok plaintext) (h' : frame.openReply key other = .ok plaintext') :
    plaintext = plaintext' := by
  unfold openReply Gcm.decrypt at h h'
  split at h
  · split at h'
    · exact Except.ok.inj (h.symm.trans h')
    · simp at h'
  · simp at h

/-- A plaintext that fits can be sealed, and the frame can be written. -/
theorem exists_sealWith {plaintext : List UInt8} (h : plaintext.length ≤ largestPlaintext)
    (key : Bytes 32) (iv : Bytes 12) (aad : List UInt8) :
    ∃ frame datagram, sealWith key iv aad plaintext = .ok frame ∧ frame.encode = .ok datagram := by
  obtain ⟨datagram, hd⟩ := exists_encode
    { ciphertext := (Gcm.encrypt (Aes.encrypt key) iv aad plaintext).1, iv,
      tag := (Gcm.encrypt (Aes.encrypt key) iv aad plaintext).2 } (by simpa [Gcm.encrypt] using h)
  exact ⟨_, datagram, sealWith_eq_ok_iff.2 ⟨h, rfl⟩, hd⟩

/-- A plaintext that is too large is not sealed. -/
theorem sealWith_of_large {plaintext : List UInt8} (h : plaintext.length > largestPlaintext)
    (key : Bytes 32) (iv : Bytes 12) (aad : List UInt8) :
    sealWith key iv aad plaintext = .error (.frame .plaintextTooLarge) :=
  if_pos h

/-- What was sealed under some associated data, written and read back, opens under the same. -/
theorem exists_opened {plaintext : List UInt8} (h : plaintext.length ≤ largestPlaintext) (key : Bytes 32)
    (iv : Bytes 12) (aad : List UInt8) :
    ∃ frame datagram received, sealWith key iv aad plaintext = .ok frame ∧ frame.encode = .ok datagram ∧
      frame.ciphertext.length = plaintext.length ∧ decode datagram = .ok received ∧
      Gcm.decrypt (Aes.encrypt key) received.iv aad received.ciphertext received.tag = .ok plaintext := by
  obtain ⟨frame, datagram, hseal, hdatagram⟩ := exists_sealWith h key iv aad
  exact ⟨frame, datagram, frame, hseal, hdatagram, length_of_sealWith hseal, decode_of_encode hdatagram,
    decrypt_of_sealWith hseal⟩

/-- **Opening undoes sealing.** A plaintext of at most 1024 bytes, sealed under any key and vector,
has a ciphertext of its own length, and is what the written frame opens to after it was read back.
So is a reply to any frame, against every frame with the vector and the tag of that one. The cipher
by itself gives every message back, whatever the associated data. A longer plaintext is not sealed,
neither as a request nor as a reply. -/
theorem opening_undoes_sealing (key : Bytes 32) (iv : Bytes 12) (plaintext : List UInt8) :
    (plaintext.length ≤ 1024 →
      (∃ frame datagram received, sealPlain key iv plaintext = .ok frame ∧ frame.encode = .ok datagram ∧
        frame.ciphertext.length = plaintext.length ∧ decode datagram = .ok received ∧
        received.openPlain key = .ok plaintext) ∧
      ∀ request : Frame, ∃ reply datagram received, sealReply key iv request plaintext = .ok reply ∧
        reply.encode = .ok datagram ∧ decode datagram = .ok received ∧
        ∀ other : Frame, other.iv = request.iv → other.tag = request.tag →
          received.openReply key other = .ok plaintext) ∧
    (∀ aad, Gcm.decrypt (Aes.encrypt key) iv aad (Gcm.encrypt (Aes.encrypt key) iv aad plaintext).1
      (Gcm.encrypt (Aes.encrypt key) iv aad plaintext).2 = .ok plaintext) ∧
    (1024 < plaintext.length →
      sealPlain key iv plaintext = .error (.frame .plaintextTooLarge) ∧
      ∀ request : Frame, sealReply key iv request plaintext = .error (.frame .plaintextTooLarge)) := by
  refine ⟨fun hsize => ⟨exists_opened hsize key iv [], fun request => ?_⟩,
    fun aad => Gcm.decrypt_encrypt .., fun hlarge => ⟨?_, fun request => ?_⟩⟩
  · obtain ⟨reply, datagram, received, hseal, hdatagram, -, hdecode, hopen⟩ :=
      exists_opened hsize key iv request.binding
    refine ⟨reply, datagram, received, hseal, hdatagram, hdecode, fun other hiv htag => ?_⟩
    rw [openReply_congr hiv htag]
    exact hopen
  · exact sealWith_of_large hlarge key iv []
  · exact sealWith_of_large hlarge key iv request.binding

/-- The empty message, and one of 1025 bytes. -/
theorem opening_undoes_sealing_ends :
    (∃ frame datagram received, sealPlain (Bytes.zero 32) (Bytes.zero 12) [] = .ok frame ∧
      frame.encode = .ok datagram ∧ decode datagram = .ok received ∧
      received.openPlain (Bytes.zero 32) = .ok []) ∧
    sealPlain (Bytes.zero 32) (Bytes.zero 12) (List.replicate 1025 0) = .error (.frame .plaintextTooLarge) := by
  obtain ⟨hempty, -, -⟩ := opening_undoes_sealing (Bytes.zero 32) (Bytes.zero 12) []
  obtain ⟨-, -, hlarge⟩ := opening_undoes_sealing (Bytes.zero 32) (Bytes.zero 12) (List.replicate 1025 0)
  obtain ⟨⟨frame, datagram, received, hseal, hdatagram, -, hdecode, hopen⟩, -⟩ := hempty (by decide)
  have hlong : 1024 < (List.replicate 1025 (0 : UInt8)).length := by rw [List.length_replicate]; decide
  exact ⟨⟨frame, datagram, received, hseal, hdatagram, hdecode, hopen⟩, (hlarge hlong).1⟩

end Frame
end Cashpoint
