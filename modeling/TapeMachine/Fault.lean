import TapeMachine.Element
import TapeMachine.Raised.Wording
import TapeMachine.Tape

/-!
# Faults

What can go wrong in one operation of the machine. Three faults are its own: a bracket without a
partner, in either direction, and a stream that failed. The rest come from outside and pass through
unchanged: a pointer that a caller put off the tape, a program element that is no operation, and an
error of a stream that is in neither handled family.

Among the errors that pass through there may be ones of this library, if a stream raised them.
`Fault.family?` is the class that a fault belongs to, whoever made it: what is said of an aborted
run goes by `Fault.isExecution`, and what a caller of this library answers for by `Fault.isOwn`.
-/

namespace TapeMachine

/-- Why a stream call of the machine failed. -/
inductive StreamFailure where
  /-- The input gave nothing. -/
  | exhausted
  /-- The output accepted nothing. -/
  | refused
  /-- The call raised an error of a handled family. -/
  | raised (e : Raised)

namespace StreamFailure

/-- What kind of failure it is; for a raised error, its class. -/
def kind : StreamFailure → String
  | exhausted => "UnexpectedEof"
  | refused   => "WriteZero"
  | raised e  => e.name

/-- The particulars that a message adds. -/
def detail : StreamFailure → String
  | exhausted => "input stream exhausted"
  | refused   => "output stream accepted no data"
  | raised e  => e.text

/-- The error number, absent unless a raised error has one. -/
def number : StreamFailure → Value
  | raised e => e.number
  | _        => .absent

/-- The raised error behind the failure, if there is one. -/
def cause? : StreamFailure → Option Raised
  | raised e => some e
  | _        => none

end StreamFailure

/-- What can go wrong in one operation; `ip` is the place of the operation in the program. -/
inductive Fault where
  /-- A taken `loopForward` without a partner. -/
  | unmatchedOpen (ip : Nat)
  /-- A taken `loopBack` without a partner. -/
  | unmatchedClose (ip : Nat)
  /-- A stream failed at an operation, or in the flush at the end of the program. -/
  | stream (ip : Nat) (why : StreamFailure)
  /-- The pointer is off the tape. -/
  | address (e : AddressError)
  /-- The element is no operation. -/
  | foreign (x : Element)
  /-- The element has no name that a trace could show. -/
  | nameless (x : Element)
  /-- A stream raised an error that the machine does not answer for. -/
  | passed (e : Raised)

namespace Fault

/-- The fault that a raised error becomes: a stream failure if its family is a handled one. -/
def ofRaised (ip : Nat) (e : Raised) : Fault :=
  if e.isHandled then stream ip (.raised e) else passed e

/-- The class of this library that a fault belongs to, if there is one. -/
def family? : Fault → Option Family
  | unmatchedOpen _  => some .unmatchedOpen
  | unmatchedClose _ => some .unmatchedClose
  | stream _ _       => some .stream
  | passed e         => e.family?
  | _                => none

/-- Whether a fault is an error of executing a program. -/
def isExecution (f : Fault) : Bool :=
  f.family?.any Family.isExecution

/-- Whether a fault is an error of this library. -/
def isOwn (f : Fault) : Bool :=
  f.family?.isSome

/-- The message about a `loopForward` without a partner. -/
def unmatchedOpenMessage (ip : Value) : String :=
  "Unmatched '[' at operation " ++ ip.text

/-- The message about a `loopBack` without a partner. -/
def unmatchedCloseMessage (ip : Value) : String :=
  "Unmatched ']' at operation " ++ ip.text

/-- The message about a stream failure. The detail is left out if there is none to tell. -/
def streamMessage (ip kind detail : Value) : String :=
  let head := "I/O failure at operation " ++ ip.text ++ ": " ++ kind.text
  if detail.isNothing then head else head ++ " (" ++ detail.text ++ ")"

/-- The error of looking up an element that is no operation: it is not in the table, or cannot be
    looked up at all. -/
def foreignName (x : Element) : String :=
  if x.isKey then "KeyError" else "TypeError"

/-- The wording of the error of looking up an element that is no operation. -/
def foreignMessage (x : Element) : String :=
  if x.isKey then x.literal else "unhashable type: '" ++ x.kind ++ "'"

/-- The message of a fault. -/
def message : Fault → String
  | unmatchedOpen ip  => unmatchedOpenMessage (.whole ip)
  | unmatchedClose ip => unmatchedCloseMessage (.whole ip)
  | stream ip why     => streamMessage (.whole ip) (.words why.kind) (.words why.detail)
  | address e         => e.message
  | foreign x         => foreignMessage x
  | nameless x        => Raised.missingText x.kind "name"
  | passed e          => e.text

end Fault

end TapeMachine
