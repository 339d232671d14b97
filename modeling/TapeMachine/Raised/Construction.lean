import TapeMachine.Raised.Signature

/-!
# Making an error by name

Whoever raises an error names its class and gives any arguments, and not every class takes every
row of them. `Raised.ofName` is the error that comes of it: the one that is named, unless
`Raised.mistake?` finds something to complain about.

* A general operating-system error with an error number is of the class which that number stands
  for.
* An error about a stream that would block may count what was written before. The count has to be a
  whole number that fits a word.
* An error about undecodable bytes wants the bytes, and a group of errors wants the errors. No loose
  value is either, so these are never raised this way.
* An error about one character that stands before the beginning of its text cannot show it.
* An error about a mistake in a file may be told the place: file, line, column and the line's text,
  and possibly where the mistake ends.
-/

namespace TapeMachine

/-- The class of an error with the given arguments, where the class alone is the general one. -/
def ErrorClass.refine (kind : ErrorClass) (args : List Value) : ErrorClass :=
  if kind = .system .general then
    .system (((Raised.leadingNumber? args).bind Value.toInt?).elim .general .ofNumber)
  else kind

namespace Raised

/-- The argument in the place of the file, in a row of three to five. -/
def third? : List Value → Option Value
  | [_, _, v]       => some v
  | [_, _, v, _]    => some v
  | [_, _, v, _, _] => some v
  | _               => none

/-- What is wrong with a count of what was written, if the value is a number at all. -/
def countError? : Value → Option Raised
  | .whole n => if fitsWord n then none else some (.badValue misfitText)
  | .float x => some (notWhole (.float x))
  | _        => none

/-- What is raised in place of an error about undecodable bytes. It takes the encoding, the bytes,
    two places and a reason. -/
def undecodableError (args : List Value) : Raised :=
  let signature : Signature := { required := [.text, .anything, .word, .word, .text] }
  (signature.error? args).getD
    (badKind ("a bytes-like object is required, not '" ++ (args[1]?.getD Value.absent).kind ++ "'"))

/-- The wording of the error that a text could not be made. -/
def textlessText : String :=
  "<class 'str'> returned a result with an exception set"

/-- What is wrong with the two places in a text at the head of a row: between them stands one
    character, but before the beginning of the text. -/
def placesError? : List Value → Option Raised
  | start :: stop :: _ =>
    match start.toInt?, stop.toInt? with
    | some m, some n =>
      if m < 0 ∧ n = m + 1 then some (named "SystemError" textlessText) else none
    | _, _           => none
  | _                  => none

/-- What is wrong with the arguments of an error about unencodable characters: the encoding, the
    text, two places in it and a reason. -/
def unencodableError? (args : List Value) : Option Raised :=
  let signature : Signature := { required := [.text, .text, .word, .word, .text] }
  signature.error? args <|> placesError? (args.drop 2)

/-- What is wrong with the arguments of an error about untranslatable characters: the text, two
    places in it and a reason. -/
def untranslatableError? (args : List Value) : Option Raised :=
  let signature : Signature := { required := [.text, .word, .word, .text] }
  signature.error? args <|> placesError? (args.drop 1)

/-- What is wrong with the arguments of an error about a mistake in a file. Of two arguments the
    second tells the place, and a line where the mistake ends comes with a column. -/
def placeError? : List Value → Option Raised
  | [_, place] =>
    match place.members? with
    | none       => some (notIterable place)
    | some parts =>
      let signature : Signature :=
        { required := [.anything, .anything, .anything, .anything], optional := 2 }
      signature.error? parts <|>
        if parts.length = 5 then
          some (badKind "end_offset must be provided when end_lineno is provided")
        else none
  | _          => none

/-- What is raised in place of a group of errors. It takes a message and a list of the errors. -/
def groupError (args : List Value) : Raised :=
  let signature : Signature :=
    { name? := some "BaseExceptionGroup.__new__()", required := [.text, .anything] }
  (signature.error? args).getD
    (match args with
      | [_, .words s]  => if s = "" then empty else notErrors
      | [_, .items xs] => if xs.isEmpty then empty else notErrors
      | _              => badKind "second argument (exceptions) must be a sequence")
where
  empty : Raised :=
    badValue "second argument (exceptions) must be a non-empty sequence"
  notErrors : Raised :=
    badValue "Item 0 of second argument (exceptions) is not an exception"

/-- What is raised in place of an error of a class, if it cannot be made of the arguments. -/
def mistake? (kind : ErrorClass) (args : List Value) : Option Raised :=
  match kind.value? with
  | some .undecodable    => some (undecodableError args)
  | some .unencodable    => unencodableError? args
  | some .untranslatable => untranslatableError? args
  | _                    =>
    if kind = .system .wouldBlock then (third? args).bind countError?
    else if kind.hasPlace then placeError? args
    else if kind.isGroup then some (groupError args)
    else none

/-- The error that is raised by a class name and arguments. -/
def ofName (name : String) (args : List Value) : Raised :=
  let kind := (ErrorClass.ofName name).refine args
  (mistake? kind args).getD { kind, args }

end Raised

end TapeMachine
