import TapeMachine.Channels
import TapeMachine.CommandLine.FileName

/-!
# Files and directories

`Files` is what the command line knows of the outside: a path either does not open, or gives the
answer to reading the file to its end. A `Directory` is one way to answer, by a list of files in the
working directory and in the directories in it. There a path is followed one name at a time, and
where it fails decides the error; places outside the working directory are known to exist only as
far as the way to them goes up.

* `Location.way` is every place that a path leads through, and `Directory.make` the directory that
  comes of making folders and writing files at some paths.
* `Directory.find` follows a path among what there is, and `Directory.open?` opens it.
-/

namespace TapeMachine.CommandLine

/-- How a path opens: not at all, or with the answer to reading the file to its end. -/
abbrev Files := String → Except Raised (Except Raised Chunk)

/-- The names that lead from the working directory to a file or a directory. -/
abbrev Location := List FileName

/-- The files and the directories there are. A directory that a file lies in need not be listed. -/
structure Directory where
  files   : List (Location × List UInt8) := []
  folders : List Location := []

/-- The places that names lead through, from a place on. A dot stays in place and two dots go
    up. -/
def Location.through (l : Location) : List FileName → List Location
  | []            => []
  | name :: names =>
    if name = [] ∨ name = .here then l.through names
    else
      let next := if name = .above then l.dropLast else l ++ [name]
      next :: Location.through next names

/-- The places that a path with slashes leads through from the working directory, in order. -/
def Location.way (path : String) : List Location :=
  Location.through [] (FileName.ofPath path)

/-- Why a path leads to no file. -/
inductive PathError where
  | missing
  | notDirectory
  | isDirectory
  | nameTooLong
  deriving DecidableEq

namespace PathError

/-- The error number. -/
def number : PathError → Int
  | missing      => 2
  | notDirectory => 20
  | isDirectory  => 21
  | nameTooLong  => 36

/-- The error of an error number. -/
def ofNumber? (n : Int) : Option PathError :=
  [missing, notDirectory, isDirectory, nameTooLong].find? fun e => e.number = n

/-- The wording. -/
def message : PathError → String
  | missing      => "No such file or directory"
  | notDirectory => "Not a directory"
  | isDirectory  => "Is a directory"
  | nameTooLong  => "File name too long"

end PathError

namespace Directory

/-- The directory after folders have been made and files been written at some paths. Every place on
    the way of a path is made a folder, and of two files at one place the later one stays. -/
def make (files : List (String × List UInt8)) (folders : List String) : Directory where
  files   := files.reverse.map fun f => ((Location.way f.1).getLastD [], f.2)
  folders := folders.flatMap Location.way
    ++ files.flatMap fun f => (Location.way f.1).dropLast

/-- The contents of the file at a location. -/
def file? (d : Directory) (l : Location) : Option (List UInt8) :=
  (d.files.find? fun f => f.1 = l).map Prod.snd

/-- Whether there is a directory at a location. -/
def isFolder (d : Directory) (l : Location) : Bool :=
  l.isEmpty || d.folders.any (l.isPrefixOf ·)
    || d.files.any fun f => l.isPrefixOf f.1 && l != f.1

/-- The longest name, and the longest path, in bytes. -/
def nameLimit : Nat := 255

@[inherit_doc nameLimit]
def pathLimit : Nat := 4095

/-- Follow the names of a path. The place reached is a location, or none outside the working
    directory. -/
def follow (d : Directory) : Option Location → List FileName → Except PathError (Option Location)
  | place, []            => .ok place
  | place, name :: names =>
    if (place.map d.isFolder).getD true = false then .error .notDirectory
    else if name = [] ∨ name = .here then d.follow place names
    else if name = .above then
      match place with
      | some (l :: ls) => d.follow (some (l :: ls).dropLast) names
      | _              => d.follow none names
    else if nameLimit < name.length then .error .nameTooLong
    else
      match place.map (· ++ [name]) with
      | none   => .error .missing
      | some l => if (d.file? l).isSome || d.isFolder l then d.follow (some l) names
                  else .error .missing

/-- The contents of the file that a path leads to. -/
def find (d : Directory) (path : String) : Except PathError (List UInt8) :=
  if path = "" then .error .missing
  else if pathLimit < (FileName.ofText path).length then .error .nameTooLong
  else
    match d.follow (if path.startsWith "/" then none else some []) (FileName.ofPath path) with
    | .error e       => .error e
    | .ok none       => .error .isDirectory
    | .ok (some l)   =>
      match d.file? l with
      | some bs => .ok bs
      | none    => .error .isDirectory

/-- How a path opens in a directory. One that is no row of bytes, or has a zero among them, is
    refused before it is followed. -/
def open? (d : Directory) : Files := fun path =>
  match FileName.unfit? path with
  | some (start, stop) => .error (.unencodable "utf-8" path start stop "surrogates not allowed")
  | none               =>
    if path.toList.contains '\x00' then .error (.badValue "embedded null byte")
    else
      match d.find path with
      | .ok bs   => .ok (.ok (.bytes bs))
      | .error e => .error (.aboutFile e.number e.message path)

end Directory

end TapeMachine.CommandLine
