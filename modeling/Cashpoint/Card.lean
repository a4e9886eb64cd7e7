/-
# Cards

A card is a file of 32 bytes: a user's PIN, encrypted as one padded block, and the
vector it was encrypted under. The Bank writes it once, when the user is created;
the ATM only reads it, and checks a PIN by encrypting what was entered in the same
way.

The name of the file is the user name and `.card`. User names are letters only, so
the file stands directly inside the directory of cards.
-/

import Cashpoint.Cipher.Cbc
import Cashpoint.Credential
import Cashpoint.Files.Tree
import Cashpoint.Text.Utf8

namespace Cashpoint

/-- A card: the encrypted PIN, and the vector that it was encrypted under. -/
structure Card where
  encryptedPin : Block
  iv : Block
  deriving DecidableEq

namespace Card

/-- The size of a card file. -/
def size : Nat := 32

/-- What stands in the file of a card. -/
def toBytes (card : Card) : List UInt8 := card.encryptedPin.toList ++ card.iv.toList

/-- The card in the content of a file that has the right size. -/
def ofBytes? (content : List UInt8) : Option Card :=
  if h : content.length = size then
    some {
      encryptedPin := Bytes.ofList (content.take 16) (by simp [h, size])
      iv := Bytes.ofList (content.drop 16) (by simp [h, size]) }
  else
    none

/-- Every card file has the same size. -/
@[simp] theorem length_toBytes (card : Card) : card.toBytes.length = size := by
  simp [toBytes, size]

/-- A card is read back as it is written. -/
theorem ofBytes?_toBytes (card : Card) : ofBytes? card.toBytes = some card := by
  simp [ofBytes?, toBytes, size]

/-- The card of a PIN under a key and a vector, if the PIN leaves room for padding. -/
def ofPin (pinKey : Bytes 32) (iv : Block) (pin : String) : Except Error Card := do
  let encryptedPin ← Cbc.encryptBlock (Aes.encrypt pinKey) iv (Utf8.encode pin)
  return { encryptedPin, iv }

/-- Whether a PIN is the one on the card. A PIN that is too long for a card is on none. -/
def verify (pinKey : Bytes 32) (card : Card) (pin : String) : Bool :=
  match ofPin pinKey card.iv pin with
  | .ok entered => entered.encryptedPin == card.encryptedPin
  | .error _ => false

end Card

/-- A directory of cards. -/
structure CardStore where
  directory : Path
  deriving DecidableEq, Repr

namespace CardStore

/-- The name of a user's card file. -/
def fileName (user : String) : String := user ++ ".card"

/-- The path of a user's card file. -/
def path (store : CardStore) (user : String) : Except Error Path :=
  if Credential.isUserName user then
    .ok (store.directory.join (fileName user))
  else
    .error (.io ⟨.invalidInput, some "invalid username for card file"⟩)

/-- The tree with the card of a new user. -/
def create (store : CardStore) (files : FileTree) (pinKey : Bytes 32) (iv : Block) (user pin : String) :
    Except Error FileTree := do
  let p ← store.path user
  let card ← Card.ofPin pinKey iv pin
  match files.createFile p card.toBytes with
  | .ok files => return files
  | .error .alreadyExists => throw (.cardExists user)
  | .error kind => throw (.ofKind kind)

/-- The card of a user. -/
def read (store : CardStore) (files : FileTree) (user : String) : Except Error Card := do
  let p ← store.path user
  match files.read p with
  | .error .notFound => throw (.cardNotFound user)
  | .error kind => throw (.ofKind kind)
  | .ok content =>
    match Card.ofBytes? content with
    | some card => return card
    | none =>
      throw (.io ⟨.invalidData,
        some ("card for " ++ user ++ " is " ++ toString content.length ++ " bytes")⟩)

/-- Whether a PIN is that of a user. -/
def verify (store : CardStore) (files : FileTree) (pinKey : Bytes 32) (user pin : String) :
    Except Error Bool := do
  let card ← store.read files user
  return card.verify pinKey pin

end CardStore
end Cashpoint
