import TapeMachine.ErrorClass
import TapeMachine.Family

/-!
# Raised errors

An error that comes from outside the machine: a stream whose call fails, a file that does not open.
It has a class and a row of arguments. `Raised.isHandled` says whether its class is in one of the
two families that the machine answers for.

An operating-system error with two or more arguments carries an error number, which
`Raised.number` tells. A class may also keep a number, and word its errors, in a way of its own.

Nothing keeps a stream from raising an error of this library. Such an error comes with the
particulars that go with its family, and `Raised.isExecution` tells whether it is one of executing
a program.
-/

namespace TapeMachine

/-- An error with its class and arguments. -/
structure Raised where
  kind : ErrorClass
  args : List Value := []
  /-- What the error says, if its class has a wording of its own. -/
  text? : Option String := none
  /-- The error number, if its class keeps one of its own. -/
  number? : Option Value := none
  /-- What is told about the error, if it is one of this library. -/
  own? : Option Particulars := none

namespace Raised

/-- The error number at the head of a row of two to five arguments. -/
def leadingNumber? : List Value → Option Value
  | n :: _ :: rest => if rest.length ≤ 3 then some n else none
  | _              => none

/-- An operating-system error about a file. -/
def aboutFile (number : Int) (reason file : String) : Raised :=
  { kind := .system (.ofNumber number), args := [.whole number, .words reason, .words file] }

/-- An error about the characters of a text from `start` up to `stop`, which an encoding has no
    bytes for. -/
def unencodable (encoding text : String) (start stop : Nat) (reason : String) : Raised :=
  { kind := .unencodable
    args := [.words encoding, .words text, .whole start, .whole stop, .words reason] }

/-- A value error with a reason. -/
def badValue (reason : String) : Raised :=
  { kind := .value, args := [.words reason] }

/-- An error of one of the remaining classes with a reason. -/
def named (name reason : String) : Raised :=
  { kind := .other name, args := [.words reason] }

/-- An error about a thing of the wrong kind. -/
def badKind (reason : String) : Raised :=
  named "TypeError" reason

/-- The wording of the error that a thing of some kind lacks what is asked of it. -/
def missingText (kind what : String) : String :=
  "'" ++ kind ++ "' object has no attribute '" ++ what ++ "'"

/-- The error that a thing of some kind lacks what is asked of it. -/
def missing (kind what : String) : Raised :=
  named "AttributeError" (missingText kind what)

/-- The error that a value raises where a whole number is needed. -/
def notWhole (v : Value) : Raised :=
  badKind ("'" ++ v.kind ++ "' object cannot be interpreted as an integer")

/-- The error that a value raises where one that holds others is needed. -/
def notIterable (v : Value) : Raised :=
  badKind ("'" ++ v.kind ++ "' object is not iterable")

/-- Whether the error is in the operating-system or in the value family. -/
def isHandled (e : Raised) : Bool :=
  e.kind.isSystem || e.kind.isValue

/-- The class of this library that the error belongs to, if there is one. -/
def family? (e : Raised) : Option Family :=
  e.own?.map Particulars.family

/-- Whether the error is one of this library. -/
def isOwn (e : Raised) : Bool :=
  e.family?.isSome

/-- Whether the error is one of executing a program. -/
def isExecution (e : Raised) : Bool :=
  e.family?.any Family.isExecution

/-- The class name of the error. -/
def name (e : Raised) : String :=
  e.kind.name

/-- The error number, absent unless the class keeps one or the error is an operating-system one that
    carries it. -/
def number (e : Raised) : Value :=
  e.number?.getD
    (if e.kind.isSystem then (leadingNumber? e.args).getD .absent else .absent)

end Raised

end TapeMachine
