import TapeMachine.Arity
import TapeMachine.Value

/-!
# The errors of this library

The classes of the errors that the library itself raises. They form a tree.

* `Family.lineage` is the way from a class up to the root of the tree and on to the root of all
  errors.
* `Family.arity?` is how many arguments an error of a class is made from.
* `Particulars` are what an error of a class tells beside its message.
-/

namespace TapeMachine

/-- The classes of this library's own errors. -/
inductive Family where
  | any
  | reading
  | execution
  | unmatchedOpen
  | unmatchedClose
  | stream
  deriving DecidableEq

namespace Family

/-- The name of a class. -/
def name : Family → String
  | any            => "BrainVmError"
  | reading        => "ReadError"
  | execution      => "VmError"
  | unmatchedOpen  => "UnmatchedLoopOpen"
  | unmatchedClose => "UnmatchedLoopClose"
  | stream         => "IoFailure"

/-- The classes from this one up to the root of the tree. -/
def ancestry : Family → List Family
  | any            => [any]
  | reading        => [reading, any]
  | execution      => [execution, any]
  | unmatchedOpen  => [unmatchedOpen, execution, any]
  | unmatchedClose => [unmatchedClose, execution, any]
  | stream         => [stream, execution, any]

/-- Whether errors of a class are ones of executing a program. -/
def isExecution (f : Family) : Bool :=
  f.ancestry.contains execution

/-- The names of the classes that an error of this class belongs to. -/
def lineage (f : Family) : List String :=
  f.ancestry.map name ++ ["Exception", "BaseException", "object"]

/-- The class of a name. -/
def ofName? (s : String) : Option Family :=
  [any, reading, execution, unmatchedOpen, unmatchedClose, stream].find? fun f => f.name = s

/-- The arguments that an error of a class is made from. A class without a row of its own takes any
    arguments. -/
def arity? : Family → Option Arity
  | .any            => none
  | .execution      => none
  | .reading        => some { required := ["message"], optional := 1 }
  | .unmatchedOpen  => some { required := ["ip"] }
  | .unmatchedClose => some { required := ["ip"] }
  | .stream         => some { required := ["kind", "ip"], optional := 2 }

end Family

/-- What is told about an error of this library beside its message. -/
structure Particulars where
  family : Family
  kind?  : Option Value := none
  ip?    : Option Value := none
  /-- The error number; absent numbers are told as such. -/
  errno? : Option Value := none
  /-- The class of the error behind this one. -/
  cause? : Option String := none

end TapeMachine
