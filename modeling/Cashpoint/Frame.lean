/-
# Frames

One frame is one datagram, with nothing before or after it:

| part | bytes |
| --- | ---: |
| version, always 1 | 1 |
| length of the ciphertext, signed, least significant byte first | 4 |
| ciphertext | 0 to 1024 |
| initialization vector | 12 |
| tag | 16 |

The declared length is checked against the largest plaintext and against the size
of the datagram before anything behind the header is cut out, so no cut can fall
outside of it: `decode` hands each cut the proof of its length.

A request's vector ends in its sequence number. A reply is sealed with the
request's vector and tag as associated data (`binding`), so it opens only against
the request that it answers.
-/

import Cashpoint.Cipher.Gcm

namespace Cashpoint

/-- One encrypted message. -/
structure Frame where
  ciphertext : List UInt8
  iv : Bytes 12
  tag : Block
  deriving DecidableEq

namespace Frame

/-- The first byte of every datagram. -/
def version : UInt8 := 1

/-- The version and the declared length. -/
def headerSize : Nat := 5

/-- The length of the largest plaintext of a frame. -/
def largestPlaintext : Nat := 1024

/-- The size of a frame without ciphertext. -/
def smallest : Nat := headerSize + 12 + 16

/-- The size of a frame with the largest plaintext. -/
def largest : Nat := smallest + largestPlaintext

/-- What a reply is bound to: the vector and the tag of its request. -/
def binding (frame : Frame) : List UInt8 := frame.iv.toList ++ frame.tag.toList

/-- The number in the last eight bytes of a request's vector. -/
def sequence (frame : Frame) : Nat := ofBigEndian (frame.iv.toList.drop 4)

/-! ## On the wire -/

/-- The frame as a datagram. -/
def encode (frame : Frame) : Except Error (List UInt8) :=
  if frame.ciphertext.length > largestPlaintext then
    .error (.frame .ciphertextTooLarge)
  else
    .ok (version :: littleEndian 4 frame.ciphertext.length ++
      (frame.ciphertext ++ (frame.iv.toList ++ frame.tag.toList)))

/-- The declared length of a datagram, as an unsigned number. -/
def declaredLength (datagram : List UInt8) : Nat := ofLittleEndian ((datagram.drop 1).take 4)

/-- The frame in a datagram that has its size. -/
def cut (datagram : List UInt8) (length : Nat) (h : datagram.length = smallest + length) : Frame where
  ciphertext := (datagram.drop headerSize).take length
  iv := Bytes.ofList ((datagram.drop (headerSize + length)).take 12)
    (by simp [h, smallest]; omega)
  tag := Bytes.ofList (datagram.drop (headerSize + length + 12))
    (by simp [h, smallest]; omega)

/-- A declared length is negative, as a signed number, from `2^31` on. -/
def negativeFrom : Nat := 2147483648

/-- The frame in a datagram. -/
def decode (datagram : List UInt8) : Except Error Frame :=
  if datagram.length < smallest then .error (.frame .tooShort)
  else if datagram.length > largest then .error (.frame .tooLong)
  else if datagram.head? ≠ some version then .error (.frame .unknownVersion)
  else if declaredLength datagram ≥ negativeFrom then .error (.frame .negativeLength)
  else if declaredLength datagram > largestPlaintext then .error (.frame .declaredTooLarge)
  else if h : datagram.length = smallest + declaredLength datagram then
    .ok (cut datagram (declaredLength datagram) h)
  else .error (.frame .lengthMismatch)

/-- A datagram is refused only as a malformed frame. -/
theorem decode_error {datagram : List UInt8} {e : Error} (h : decode datagram = .error e) :
    ∃ fault, e = .frame fault := by
  simp only [decode] at h
  repeat' split at h
  all_goals first
    | exact ⟨_, (Except.error.inj h).symm⟩
    | simp at h

/-! ## Sealing and opening -/

/-- The plaintext encrypted and authenticated, together with the associated data. -/
def sealWith (key : Bytes 32) (iv : Bytes 12) (aad plaintext : List UInt8) : Except Error Frame :=
  if plaintext.length > largestPlaintext then
    .error (.frame .plaintextTooLarge)
  else
    let (ciphertext, tag) := Gcm.encrypt (Aes.encrypt key) iv aad plaintext
    .ok { ciphertext, iv, tag }

/-- A request, or a message that answers none, under a vector that was never used before. The vector is one of the
sequencer for a request. A message that is no request draws its own, and is sealed by the same steps with the vector
that was drawn for an argument. -/
def sealPlain (key : Bytes 32) (iv : Bytes 12) (plaintext : List UInt8) : Except Error Frame :=
  sealWith key iv [] plaintext

/-- The reply to a request. -/
def sealReply (key : Bytes 32) (iv : Bytes 12) (request : Frame) (plaintext : List UInt8) :
    Except Error Frame :=
  sealWith key iv request.binding plaintext

/-- The plaintext of a frame that is bound to nothing. -/
def openPlain (key : Bytes 32) (frame : Frame) : Except Error (List UInt8) :=
  Gcm.decrypt (Aes.encrypt key) frame.iv [] frame.ciphertext frame.tag

/-- The plaintext of a reply, if it was sealed for this request. -/
def openReply (key : Bytes 32) (frame request : Frame) : Except Error (List UInt8) :=
  Gcm.decrypt (Aes.encrypt key) frame.iv request.binding frame.ciphertext frame.tag

end Frame
end Cashpoint
