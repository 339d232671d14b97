import TapeMachine.Reading

/-!
# Diagnostics

How an error looks from outside: the class it is reported as, its message and, for the errors of
this library, what else is told about them.

Anyone can make an error of this library from arguments of any kind, and the error tells them as
they are. `Diagnostic.ofArguments` is what comes of it; with too few or too many arguments that is
another error. `Diagnostic.toRaised` is the error in the hands of a stream that raises it.
-/

namespace TapeMachine

/-- An error as it is reported. -/
structure Diagnostic where
  name    : String
  message : String
  own?    : Option Particulars := none

namespace Diagnostic

/-- An error of this library. -/
def own (message : String) (p : Particulars) : Diagnostic :=
  ⟨p.family.name, message, some p⟩

/-- An error of this library that has only arguments. -/
def plain (family : Family) (args : List Value) : Diagnostic :=
  own (Raised.plainText args) { family }

/-- A `loopForward` without a partner. -/
def unmatchedOpen (ip : Value) : Diagnostic :=
  own (Fault.unmatchedOpenMessage ip) { family := .unmatchedOpen, ip? := some ip }

/-- A `loopBack` without a partner. -/
def unmatchedClose (ip : Value) : Diagnostic :=
  own (Fault.unmatchedCloseMessage ip) { family := .unmatchedClose, ip? := some ip }

/-- A stream failure. -/
def stream (kind ip errno detail : Value) (cause? : Option String) : Diagnostic :=
  own (Fault.streamMessage ip kind detail)
    { family := .stream, kind? := some kind, ip? := some ip, errno? := some errno, cause? }

/-- A program that could not be read. -/
def reading (message : String) (errno : Value) (cause? : Option String) : Diagnostic :=
  own message { family := .reading, errno? := some errno, cause? }

/-- What comes of making an error of a class from some arguments. -/
def ofArguments (f : Family) (args : List Value) : Diagnostic :=
  match f, args with
  | .unmatchedOpen, [ip]               => unmatchedOpen ip
  | .unmatchedClose, [ip]              => unmatchedClose ip
  | .stream, [kind, ip]                => stream kind ip .absent .absent none
  | .stream, [kind, ip, errno]         => stream kind ip errno .absent none
  | .stream, [kind, ip, errno, detail] => stream kind ip errno detail none
  | .reading, [message]                => reading message.text .absent none
  | .reading, [message, errno]         => reading message.text errno none
  | f, args                            =>
    match f.arity? with
    | none   => plain f args
    | some a => ⟨"TypeError", a.complaint (f.name ++ ".__init__") args.length, none⟩

/-- A raised error. -/
def ofRaised (e : Raised) : Diagnostic :=
  ⟨e.name, e.text, e.own?⟩

/-- The error as one that somebody raises. -/
def toRaised (d : Diagnostic) : Raised :=
  { kind := .other d.name, text? := d.message, number? := d.own?.bind (·.errno?), own? := d.own? }

/-- An error does not change on its way through a stream. -/
@[simp] theorem ofRaised_toRaised (d : Diagnostic) : ofRaised d.toRaised = d := rfl

/-- A fault of the machine. -/
def ofFault : Fault → Diagnostic
  | .unmatchedOpen ip  => unmatchedOpen (.whole ip)
  | .unmatchedClose ip => unmatchedClose (.whole ip)
  | .stream ip why     =>
    stream (.words why.kind) (.whole ip) why.number (.words why.detail)
      (why.cause?.map Raised.name)
  | .address e         => ⟨"IndexError", e.message, none⟩
  | .foreign x         => ⟨Fault.foreignName x, Fault.foreignMessage x, none⟩
  | .nameless x        => ⟨"AttributeError", (Fault.nameless x).message, none⟩
  | .passed e          => ofRaised e

/-- A fault is reported with the class that it belongs to. -/
theorem family_ofFault (f : Fault) : (ofFault f).own?.map Particulars.family = f.family? := by
  cases f <;> rfl

/-- A program that did not come out of its stream. -/
def ofReadError : ReadError → Diagnostic
  | .unreadable cause =>
    reading (ReadError.unreadable cause).message cause.number (some cause.name)
  | .passed e => ofRaised e

/-- A size that no tape can have. -/
def ofSizeError (e : SizeError) : Diagnostic :=
  match e with
  | .notPositive _ => ⟨"ValueError", e.message, none⟩
  | .tooLarge      => ⟨"OverflowError", e.message, none⟩
  | .noRoom        => ⟨"MemoryError", e.message, none⟩

/-- An element that stands for nothing of the kind that is asked for. -/
def ofForeign (x : Element) : Diagnostic :=
  ofFault (.foreign x)

/-- A value that is not the value of any member of a kind. -/
def notAMember (v : Value) (kind : String) : Diagnostic :=
  ⟨"ValueError", v.literal ++ " is not a valid " ++ kind, none⟩

end Diagnostic

end TapeMachine
