/-
# Keys

A Bank and its ATM share two keys: one for the PINs on cards, one for the messages
between them. A key file is the PIN key followed by the message key; what comes
after them is ignored.
-/

import Cashpoint.Bytes
import Cashpoint.Files.Tree

namespace Cashpoint

/-- The key of the cards and that of the messages. -/
structure Keys where
  pinKey : Bytes 32
  messageKey : Bytes 32
  deriving DecidableEq

namespace Keys

/-- The size of a key file. -/
def fileSize : Nat := 64

/-- The keys in the content of a key file. -/
def ofBytes (content : List UInt8) : Except Error Keys :=
  if h : content.length < fileSize then
    .error (.keyFile ("expected " ++ toString fileSize ++ " bytes, found " ++ toString content.length))
  else
    .ok {
      pinKey := Bytes.ofList (content.take 32) (by simp only [fileSize] at h; simp; omega)
      messageKey := Bytes.ofList ((content.drop 32).take 32) (by simp only [fileSize] at h; simp; omega) }

/-- The keys in exactly the bytes of a key file. -/
def ofFile (content : Bytes 64) : Keys where
  pinKey := Bytes.ofList (content.toList.take 32) (by simp)
  messageKey := Bytes.ofList (content.toList.drop 32) (by simp)

/-- The content of the key file. -/
def toBytes (keys : Keys) : List UInt8 := keys.pinKey.toList ++ keys.messageKey.toList

/-- Keys are read back as they are written, whatever follows. -/
theorem ofBytes_toBytes (keys : Keys) (rest : List UInt8) :
    ofBytes (keys.toBytes ++ rest) = .ok keys := by
  simp [ofBytes, toBytes, fileSize]
  omega

/-- What a file of keys holds is written as it was. -/
theorem toBytes_ofFile (content : Bytes 64) : (ofFile content).toBytes = content.toList := by
  simp [ofFile, toBytes]

/-- The keys in a file. -/
def load (files : FileTree) (p : Path) : Except Error Keys :=
  match files.read p with
  | .ok content => ofBytes content
  | .error kind => .error (.ofKind kind)

end Keys
end Cashpoint
