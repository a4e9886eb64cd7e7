/-
# Errors

Everything that can go wrong below the consoles, as a cause, and the text shown
for it (`Error.message`). Malformed console lines are no errors: they are answered
with a usage line before any key, card, balance or datagram is touched.

An error `isIntegrity` when it means that the peer or the network cannot be
trusted: a datagram that is no frame, one that does not authenticate, and an
authentic request that comes too late.
-/

namespace Cashpoint

/-- Why bytes are no frame, or why no frame can be made. -/
inductive FrameFault
  | plaintextTooLarge
  | ciphertextTooLarge
  | tooShort
  | tooLong
  | unknownVersion
  | negativeLength
  | declaredTooLarge
  | lengthMismatch
  | sequenceExhausted
  deriving DecidableEq, Repr

/-- The text about what is wrong with a frame. -/
def FrameFault.message : FrameFault → String
  | plaintextTooLarge => "plaintext too large"
  | ciphertextTooLarge => "ciphertext too large"
  | tooShort => "frame too short"
  | tooLong => "frame too long"
  | unknownVersion => "unknown frame version"
  | negativeLength => "negative length"
  | declaredTooLarge => "declared length too large"
  | lengthMismatch => "length does not match datagram"
  | sequenceExhausted => "request sequence exhausted"

/-- What the file system or the network answered instead of doing what was asked. -/
inductive IoKind
  | notFound
  | alreadyExists
  | isADirectory
  | notADirectory
  | invalidFilename
  | invalidInput
  | invalidData
  | unreachable
  | other
  deriving DecidableEq, Repr

/-- The usual text about an operation that failed. -/
def IoKind.description : IoKind → String
  | notFound => "entity not found"
  | alreadyExists => "entity already exists"
  | isADirectory => "is a directory"
  | notADirectory => "not a directory"
  | invalidFilename => "invalid filename"
  | invalidInput => "invalid input parameter"
  | invalidData => "invalid data"
  | unreachable => "network unreachable"
  | other => "other error"

/-- A failed operation on files or on the network. `detail` is the text given to it, where it was
found by a check of this library and not by the system. -/
structure IoFault where
  kind : IoKind
  detail : Option String := none
  deriving DecidableEq, Repr

/-- The text of the system, or else the usual one. -/
def IoFault.message (fault : IoFault) : String := fault.detail.getD fault.kind.description

/-- What a reader of JSON text met first: text that is not JSON, a well-formed beginning with the
wrong type, name or value in it, or the end of the text. -/
inductive JsonFault
  | malformed
  | mismatched
  | truncated
  deriving DecidableEq, Repr

/-- The text about what is wrong with a configuration. -/
def JsonFault.message : JsonFault → String
  | malformed => "malformed JSON"
  | mismatched => "unexpected JSON value"
  | truncated => "unexpected end of JSON"

/-- Everything that can go wrong. -/
inductive Error
  /-- The ledger has no such user. -/
  | noSuchUser (user : String)
  /-- The ledger has the user already. -/
  | userExists (user : String)
  /-- A withdrawal larger than the balance. -/
  | insufficientFunds
  /-- A balance would leave the signed 32-bit range. -/
  | overflow
  /-- A negative amount. -/
  | invalidAmount (amount : Int32)
  /-- A message whose tag does not match. -/
  | integrity
  /-- An authentic request whose sequence number has been passed. -/
  | replayed (sequence : Nat)
  | frame (fault : FrameFault)
  /-- The random source failed. -/
  | entropy (reason : String)
  /-- A secret that leaves no room for padding in one cipher block. -/
  | blockTooLong (length : Nat)
  /-- There is no card for the user. -/
  | cardNotFound (user : String)
  /-- There is a card for the user already. -/
  | cardExists (user : String)
  /-- A key file that holds no keys. -/
  | keyFile (reason : String)
  /-- No reply after this many attempts. -/
  | timeout (attempts : Nat)
  /-- An authentic reply that is no answer to the request. -/
  | unexpectedResponse (text : String)
  /-- A configuration value that is refused. -/
  | configuration (reason : String)
  | io (fault : IoFault)
  | serialization (fault : JsonFault)
  deriving DecidableEq, Repr

namespace Error

/-- The text shown for an error. -/
def message : Error → String
  | noSuchUser user => "no such user: " ++ user
  | userExists user => "user already exists: " ++ user
  | insufficientFunds => "insufficient funds"
  | overflow => "balance would overflow"
  | invalidAmount amount => "invalid amount: " ++ toString amount.toInt
  | integrity => "message failed authentication"
  | replayed sequence => "stale request sequence " ++ toString sequence
  | frame fault => "malformed frame: " ++ fault.message
  | entropy reason => "entropy source unavailable: " ++ reason
  | blockTooLong length => "plaintext of " ++ toString length ++ " bytes does not fit one cipher block"
  | cardNotFound user => "no card for " ++ user
  | cardExists user => "card already exists for " ++ user
  | keyFile reason => "malformed key file: " ++ reason
  | timeout attempts => "request timed out after " ++ toString attempts ++ " attempts"
  | unexpectedResponse text => "unexpected response: " ++ text
  | configuration reason => "configuration error: " ++ reason
  | io fault => "IO error: " ++ fault.message
  | serialization fault => "serialization error: " ++ fault.message

/-- Whether the error means that the peer or the network is not to be trusted. -/
def isIntegrity : Error → Bool
  | integrity | frame _ | replayed _ => true
  | _ => false

/-- The error of a failed operation that the system reported. -/
def ofKind (kind : IoKind) : Error := io { kind }

end Error
end Cashpoint
