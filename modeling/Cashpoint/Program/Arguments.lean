/-
# Command lines

The programs take at most one positional argument and at most one option,
`-c <config>`, also written `-c<config>`, `-c=<config>`, `--config <config>` and
`--config=<config>`. The argument `--` makes every later argument positional, and a
single `-` is positional by itself. `-h` and `--help` ask for help.

Anything else is no command line of the program. An unknown option and a positional
argument too many are met where they stand, as is a request for help; an option that is
given twice or without a value, and an argument that is missing, only at the end.
-/

namespace Cashpoint
namespace Program

/-- What a program takes. -/
structure Grammar where
  /-- Whether exactly one positional argument is needed; otherwise none is taken. -/
  takesPath : Bool
  /-- Whether the option for a configuration file is taken. -/
  takesConfig : Bool

/-- What a command line gives. -/
structure Arguments where
  path? : Option String := none
  config? : Option String := none
  deriving DecidableEq, Repr

inductive Refusal
  /-- Help was asked for. -/
  | help
  /-- The arguments are no command line of the program. -/
  | usage
  deriving DecidableEq, Repr

/-- One argument, by its form. -/
inductive Shape
  | positional (text : String)
  /-- The mark after which all arguments are positional. -/
  | mark
  | help
  /-- The option for a configuration file, with the value attached to it, if any. -/
  | config (attached : Option String)
  | unknown
  deriving DecidableEq, Repr

/-- The value attached to a short option, which an equals sign may precede. -/
def attached : List Char → Option String
  | [] => none
  | '=' :: rest => some (String.ofList rest)
  | text => some (String.ofList text)

/-- The form of a long option, without its dashes. -/
def Shape.ofLong (text : List Char) : Shape :=
  let name := String.ofList (text.takeWhile (· ≠ '='))
  let value := text.dropWhile (· ≠ '=')
  if name = "config" then .config (if value = [] then none else some (String.ofList value.tail))
  else if name = "help" ∧ value = [] then .help
  else .unknown

/-- The shape of an argument. -/
def Shape.of (argument : String) : Shape :=
  match argument.toList with
  | ['-', '-'] => .mark
  | '-' :: '-' :: text => .ofLong text
  | ['-'] => .positional argument
  | '-' :: 'c' :: text => .config (attached text)
  | '-' :: 'h' :: _ => .help
  | '-' :: _ => .unknown
  | _ => .positional argument

/-- What has been read of a command line. -/
structure Reading where
  path? : Option String := none
  /-- The value of each option for a configuration file, `none` where it is missing. -/
  configs : List (Option String) := []

namespace Reading

/-- Takes an argument for the path, if the program has one and it is the first. -/
def addPath (g : Grammar) (r : Reading) (text : String) : Except Refusal Reading :=
  if g.takesPath ∧ r.path? = none then .ok { r with path? := some text } else .error .usage

/-- Takes the value of the option for a configuration, which may come more than once. -/
def addConfig (g : Grammar) (r : Reading) (value : Option String) : Except Refusal Reading :=
  if g.takesConfig then .ok { r with configs := r.configs ++ [value] } else .error .usage

/-- Reads arguments that are all positional. -/
def readPositional (g : Grammar) (r : Reading) (arguments : List String) : Except Refusal Reading :=
  arguments.foldlM (addPath g) r

/-- Reads arguments one after the other. The value of an option is attached to it, or is the next
argument if that has the form of a positional one. -/
def readFrom (g : Grammar) (r : Reading) : List String → Except Refusal Reading
  | [] => .ok r
  | argument :: rest =>
    match Shape.of argument with
    | .mark => readPositional g r rest
    | .help => .error .help
    | .unknown => .error .usage
    | .positional text => (addPath g r text).bind fun r => readFrom g r rest
    | .config (some text) => (addConfig g r (some text)).bind fun r => readFrom g r rest
    | .config none =>
      match rest with
      | [] => addConfig g r none
      | next :: rest =>
        match Shape.of next with
        | .positional text => (addConfig g r (some text)).bind fun r => readFrom g r rest
        | _ => (addConfig g r none).bind fun r => readFrom g r (next :: rest)

/-- What a command line gives as a whole. -/
def complete (g : Grammar) (r : Reading) : Except Refusal Arguments :=
  if g.takesPath ∧ r.path? = none then .error .usage
  else
    match r.configs with
    | [] => .ok { path? := r.path? }
    | [some text] => .ok { path? := r.path?, config? := some text }
    | _ => .error .usage

end Reading

/-- The arguments of a command line. -/
def Arguments.read (g : Grammar) (arguments : List String) : Except Refusal Arguments := do
  let r ← Reading.readFrom g {} arguments
  r.complete g

end Program
end Cashpoint
