/-!
# Error classes

The classes of the errors that come from outside the machine. Two families of them matter here,
because the machine answers for them: the errors of the operating system and those about values.
Either family is open, and a class of any name may be put into it. One that is in use, an operation
that a stream does not support, is in both.

* `SystemError.ofNumber` is the class that an error number of the operating system stands for.
* `ErrorClass.isSystem` and `ErrorClass.isValue` tell the families.
-/

namespace TapeMachine

/-- The errors of the operating system. -/
inductive SystemError where
  | general
  | permission
  | notFound
  | noProcess
  | interrupted
  | noChild
  | wouldBlock
  | alreadyExists
  | notDirectory
  | isDirectory
  | brokenPipe
  | connection
  | connectionAborted
  | connectionReset
  | connectionRefused
  | timedOut
  deriving DecidableEq

namespace SystemError

/-- The name of an operating-system error. -/
def name : SystemError → String
  | general           => "OSError"
  | permission        => "PermissionError"
  | notFound          => "FileNotFoundError"
  | noProcess         => "ProcessLookupError"
  | interrupted       => "InterruptedError"
  | noChild           => "ChildProcessError"
  | wouldBlock        => "BlockingIOError"
  | alreadyExists     => "FileExistsError"
  | notDirectory      => "NotADirectoryError"
  | isDirectory       => "IsADirectoryError"
  | brokenPipe        => "BrokenPipeError"
  | connection        => "ConnectionError"
  | connectionAborted => "ConnectionAbortedError"
  | connectionReset   => "ConnectionResetError"
  | connectionRefused => "ConnectionRefusedError"
  | timedOut          => "TimeoutError"

/-- Every operating-system error, the general one first. -/
def all : List SystemError :=
  [general, permission, notFound, noProcess, interrupted, noChild, wouldBlock, alreadyExists,
   notDirectory, isDirectory, brokenPipe, connection, connectionAborted, connectionReset,
   connectionRefused, timedOut]

/-- The error that an error number stands for; a number without a class of its own is general. -/
def ofNumber (n : Int) : SystemError :=
  if n = 1 ∨ n = 13 then permission
  else if n = 2 then notFound
  else if n = 3 then noProcess
  else if n = 4 then interrupted
  else if n = 10 then noChild
  else if n = 11 ∨ n = 114 ∨ n = 115 then wouldBlock
  else if n = 17 then alreadyExists
  else if n = 20 then notDirectory
  else if n = 21 then isDirectory
  else if n = 32 ∨ n = 108 then brokenPipe
  else if n = 103 then connectionAborted
  else if n = 104 then connectionReset
  else if n = 110 then timedOut
  else if n = 111 then connectionRefused
  else general

end SystemError

/-- What an error of the value family is about. -/
inductive ValueKind where
  /-- A value that cannot be used. -/
  | general
  /-- Bytes that are no text in their encoding. -/
  | undecodable
  /-- A text that an encoding has no bytes for. -/
  | unencodable
  /-- A text that does not go over into another one. -/
  | untranslatable
  deriving DecidableEq

/-- A class of raised errors: its name, and the families it is in. There are as many classes as
    anyone cares to make, in one of the two families, in both or in neither. -/
structure ErrorClass where
  name : String
  /-- Whether the class is in the operating-system family. -/
  isSystem : Bool := false
  /-- What its errors are about, if the class is in the value family. -/
  value? : Option ValueKind := none
  deriving DecidableEq

namespace ErrorClass

/-- An operating-system error. -/
def system (e : SystemError) : ErrorClass :=
  { name := e.name, isSystem := true }

/-- A value that cannot be used. -/
def value : ErrorClass :=
  { name := "ValueError", value? := some .general }

/-- A text that cannot be encoded or decoded, with no position. -/
def unicode : ErrorClass :=
  { name := "UnicodeError", value? := some .general }

/-- Bytes that are no text in their encoding. -/
def undecodable : ErrorClass :=
  { name := "UnicodeDecodeError", value? := some .undecodable }

/-- A text that an encoding has no bytes for. -/
def unencodable : ErrorClass :=
  { name := "UnicodeEncodeError", value? := some .unencodable }

/-- A text that does not go over into another one. -/
def untranslatable : ErrorClass :=
  { name := "UnicodeTranslateError", value? := some .untranslatable }

/-- An operation that the stream does not have; an operating-system and a value error at once. -/
def unsupported : ErrorClass :=
  { name := "UnsupportedOperation", isSystem := true, value? := some .general }

/-- A class outside the two families. -/
def other (name : String) : ErrorClass :=
  { name }

/-- The class of a name. Two more names are in use for the general operating-system error. -/
def ofName (n : String) : ErrorClass :=
  if n = "IOError" ∨ n = "EnvironmentError" then system .general
  else match SystemError.all.find? fun e => e.name = n with
    | some e => system e
    | none =>
      if n = "ValueError" then value
      else if n = "UnicodeError" then unicode
      else if n = "UnicodeDecodeError" then undecodable
      else if n = "UnicodeEncodeError" then unencodable
      else if n = "UnicodeTranslateError" then untranslatable
      else if n = "UnsupportedOperation" then unsupported
      else other n

/-- Whether a class is in the value family. -/
def isValue (c : ErrorClass) : Bool :=
  c.value?.isSome

/-- Whether errors of a class are about bytes that are no text. -/
def isUndecodable (c : ErrorClass) : Bool :=
  c.value? = some .undecodable

/-- Whether errors of a class can tell the place of a mistake in a file. -/
def hasPlace (c : ErrorClass) : Bool :=
  ["SyntaxError", "IndentationError", "TabError"].contains c.name

/-- Whether errors of a class are made of other errors. -/
def isGroup (c : ErrorClass) : Bool :=
  ["ExceptionGroup", "BaseExceptionGroup"].contains c.name

end ErrorClass

end TapeMachine
