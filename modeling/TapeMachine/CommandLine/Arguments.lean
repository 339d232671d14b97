import TapeMachine.Text.Digit
import TapeMachine.Text.Quoted

/-!
# Arguments

The command line takes one program path, which may be left out, and a request for help.

* An argument that begins with a dash is an **option**, unless it is a dash alone, a negative
  number, or has a blank in it. The only option is help, in a long form that may be cut short and
  in a short form that may be given several times behind one dash. It takes no value.
* The first `--` is a **separator**: all that follows it is no option. It is dropped if it stands
  directly before or after the place of the path.
* The first argument that is no option is the **path**. Unknown options and further paths are left
  over, and anything left over makes the call invalid.

Arguments are read from the left, and help or a wrong use of help ends the reading at once.
-/

namespace TapeMachine.CommandLine

/-- What the arguments ask for. -/
inductive Request where
  /-- Run the program at a path, or the one on the standard input. -/
  | program (path? : Option String)
  /-- Show the help text. -/
  | help
  /-- Nothing that can be done. -/
  | invalid (message : String)
  deriving DecidableEq

/-- What one argument is when it stands before any separator. -/
inductive Word where
  | help
  /-- The help option, which takes no value, with a value. -/
  | helpWith (value : String)
  | separator
  | unknown
  | plain
  deriving DecidableEq

/-- What the letters after the short form of help come to. Another `h` asks for help again, and
    anything else is a value. -/
def Word.ofShortTail : List Char → Word
  | []       => .help
  | 'h' :: r => ofShortTail r
  | v        => .helpWith (String.ofList v)

/-- Whether the text is a dash followed by a decimal number. -/
def isNegativeNumber : List Char → Bool
  | '-' :: r =>
    let r := if r.getLast? = some '\n' then r.dropLast else r
    let whole := r.takeWhile Text.isDecimalDigit
    match r.dropWhile Text.isDecimalDigit with
    | []          => !whole.isEmpty
    | '.' :: frac => !frac.isEmpty && frac.all Text.isDecimalDigit
    | _           => false
  | _ => false

/-- The long form of help. -/
def longHelp : List Char := "--help".toList

/-- What an argument is when it stands before any separator. -/
def Word.ofArgument (s : String) : Word :=
  match s.toList with
  | ['-', '-']             => .separator
  | '-' :: '-' :: r        =>
    let option := '-' :: '-' :: r.takeWhile (· ≠ '=')
    if option.isPrefixOf longHelp then
      match r.dropWhile (· ≠ '=') with
      | []     => .help
      | _ :: v => .helpWith (String.ofList v)
    else if s.toList.contains ' ' then .plain else .unknown
  | ['-', 'h', '=']        => .helpWith ""
  | '-' :: 'h' :: '=' :: v => ofShortTail v
  | '-' :: 'h' :: r        => ofShortTail r
  | '-' :: c :: r          =>
    if isNegativeNumber ('-' :: c :: r) || (c :: r).contains ' ' then .plain else .unknown
  | _                      => .plain

/-- What has been read: the path, whether it was the last argument, and what is left over. -/
structure Reader where
  path?    : Option String := none
  atPath   : Bool := false
  leftOver : Array String := #[]

namespace Reader

/-- Read an argument that is no option. -/
def plain (r : Reader) (s : String) : Reader :=
  match r.path? with
  | none   => { r with path? := some s, atPath := true }
  | some _ => { r with leftOver := r.leftOver.push s, atPath := false }

/-- Read a separator. -/
def separator (r : Reader) (s : String) : Reader :=
  if r.path?.isNone || r.atPath then { r with atPath := false }
  else { r with leftOver := r.leftOver.push s, atPath := false }

/-- Read an unknown option. -/
def unknown (r : Reader) (s : String) : Reader :=
  { r with leftOver := r.leftOver.push s, atPath := false }

/-- The request at the end of the arguments. -/
def request (r : Reader) : Request :=
  if r.leftOver.isEmpty then .program r.path?
  else .invalid ("unrecognized arguments: " ++ " ".intercalate r.leftOver.toList)

/-- Read the arguments from the left. -/
def read (r : Reader) : List String → Request
  | []      => r.request
  | s :: ss =>
    match Word.ofArgument s with
    | .help       => .help
    | .helpWith v =>
      .invalid ("argument -h/--help: ignored explicit argument " ++ Text.quoted v)
    | .separator  => (ss.foldl plain (r.separator s)).request
    | .unknown    => (r.unknown s).read ss
    | .plain      => (r.plain s).read ss

end Reader

/-- What the arguments ask for. -/
def Request.ofArguments (args : List String) : Request :=
  Reader.read {} args

end TapeMachine.CommandLine
