/-
# Paths

A path is a text in which slashes separate pieces. It is followed as a walk (`steps`):
every non-empty piece is a step, `.` stays and `..` goes up. A slash at the end asks for
a directory.

Steps that stay do not count where a path is taken apart, so a slash or a `/.` at the end
does not matter to the name of the file (`fileName?`). The directories on the way to it
(`enclosing`) are the beginnings of the text that end in a step that moves. Such a
beginning is kept as it was written, because its length decides whether the system
follows it.
-/

namespace Cashpoint

/-- A path, as the text that it is written as. -/
structure Path where
  text : String
  deriving DecidableEq, Repr

namespace Path

/-- The pieces between slashes, empty ones included. -/
def pieces (p : Path) : List String := (p.text.toList.splitOn '/').map String.ofList

/-- The path of pieces. -/
def ofPieces (pieces : List String) : Path := ⟨String.intercalate "/" pieces⟩

/-- Whether the path starts at the root. -/
def isAbsolute (p : Path) : Bool := p.text.toList.head? == some '/'

/-- Whether the path ends in a slash, and so can only name a directory. -/
def endsInSlash (p : Path) : Bool := p.text.toList.getLast? == some '/'

/-! ## As a walk -/

/-- One step of a walk through directories. -/
inductive Step
  | stay
  | up
  | down (name : String)
  deriving DecidableEq, Repr

/-- The step that a piece stands for. -/
def Step.ofPiece (piece : String) : Step :=
  if piece = "." then stay else if piece = ".." then up else down piece

/-- The steps to what the path names. -/
def steps (p : Path) : List Step := (p.pieces.filter (· ≠ "")).map Step.ofPiece

/-! ## Taking paths apart -/

/-- The name of the file, if the last step that moves goes down to one. -/
def fileName? (p : Path) : Option String :=
  match (p.steps.filter (· ≠ .stay)).getLast? with
  | some (.down name) => some name
  | _ => none

/-- Whether a piece is a step that moves. -/
def isMove (piece : String) : Bool := piece ≠ "" && piece ≠ "."

/-- The beginnings that end in a step that moves, for pieces given last to first. -/
def beginnings : List String → List Path
  | [] => []
  | piece :: before =>
    if isMove piece then ofPieces (piece :: before).reverse :: beginnings before
    else beginnings before

/-- The directories on the way to what the path names, the innermost first. -/
def enclosing (p : Path) : List Path := (beginnings p.pieces.reverse).tail

/-! ## Making paths -/

/-- The path with text put at its end. -/
def append (p : Path) (ending : String) : Path := ⟨p.text ++ ending⟩

/-- The path of a name inside a directory. -/
def join (directory : Path) (name : String) : Path :=
  if directory.text = "" then ⟨name⟩
  else if directory.endsInSlash then ⟨directory.text ++ name⟩
  else ⟨directory.text ++ "/" ++ name⟩

/-- Whether the path names a file whose name has something before the given ending. -/
def hasEnding (p : Path) (ending : String) : Bool :=
  match p.fileName? with
  | some name => ending.utf8ByteSize < name.utf8ByteSize && ending.toList.isSuffixOf name.toList
  | none => false

end Path
end Cashpoint
