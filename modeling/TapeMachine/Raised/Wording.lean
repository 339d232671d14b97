import TapeMachine.Raised

/-!
# The text of raised errors

What a raised error says, as `Raised.text` gives it. Unless its class has a wording of its own, an
error shows its arguments as they are. Four kinds of errors have more to tell.

* An operating-system error with a number and a reason shows both, and the file concerned.
* A missing key is shown as it would be written down.
* An error about characters that do not encode or translate shows the one character, or where the
  first and the last of them stand.
* An error about a mistake in a file adds the name of the file and the line.
-/

namespace TapeMachine.Raised

/-- The text of a row of arguments: nothing, the only argument, or the whole row. -/
def plainText : List Value → String
  | []   => ""
  | [v]  => v.text
  | args => Value.row args

-- ── Operating-system errors ──────────────────────────────────────────────────────

/-- The number and the reason of an operating-system error. -/
def numberedText (n reason : Value) : String :=
  "[Errno " ++ n.text ++ "] " ++ reason.text

/-- The file that an operating-system error is about, if the argument names one. Of a stream that
    would block, a number in its place counts what was written before. -/
def file? (kind : ErrorClass) (v : Value) : Option Value :=
  if v.isAbsent || (kind = .system .wouldBlock && v.toInt?.isSome) then none else some v

/-- The text of an operating-system error: number and reason, then the file or files concerned. -/
def systemText (kind : ErrorClass) : List Value → String
  | [n, reason]                 => numberedText n reason
  | [n, reason, file]           => numberedText n reason ++ suffix (file? kind file) none
  | [n, reason, file, _]        => numberedText n reason ++ suffix (file? kind file) none
  | [n, reason, file, _, other] =>
    numberedText n reason ++ suffix (file? kind file) (if other.isAbsent then none else some other)
  | args                        => plainText args
where
  suffix : Option Value → Option Value → String
    | none, _               => ""
    | some file, none       => ": " ++ file.literal
    | some file, some other => ": " ++ file.literal ++ " -> " ++ other.literal

-- ── Characters that go nowhere ───────────────────────────────────────────────────

/-- The only character from `start` up to `stop`, if there is just one. -/
def onlyCharacter? (text : String) (start stop : Int) : Option Char :=
  if stop = start + 1 then text.toList[start.toNat]? else none

/-- What is wrong with the characters of a text from `start` up to `stop`. The place of the last of
    them is a word like any place, so it wraps around below the least one. -/
def charactersText (text : String) (start stop : Int) (reason : Value) : String :=
  let place :=
    match onlyCharacter? text start stop with
    | some c => " '" ++ String.ofList (Text.numbered c) ++ "' in position " ++ toString start
    | none   =>
      "s in position " ++ toString start ++ "-"
        ++ toString (Int.bmod (stop - 1) (2 * wordLimit.toNat))
  "character" ++ place ++ ": " ++ reason.text

/-- The text of an error about characters that an encoding has no bytes for. -/
def unencodableText : List Value → String
  | [encoding, text, start, stop, reason] =>
    "'" ++ encoding.text ++ "' codec can't encode "
      ++ charactersText text.text (start.toInt?.getD 0) (stop.toInt?.getD 0) reason
  | args                                  => plainText args

/-- The text of an error about characters that do not go over into another text. -/
def untranslatableText : List Value → String
  | [text, start, stop, reason] =>
    "can't translate "
      ++ charactersText text.text (start.toInt?.getD 0) (stop.toInt?.getD 0) reason
  | args                        => plainText args

-- ── Mistakes in a file ───────────────────────────────────────────────────────────

/-- The name of a file without the directories that lead to it, if the value is a name at all. -/
def fileName? : Value → Option String
  | .words s => some ((s.splitOn "/").getLastD "")
  | _        => none

/-- The wording of a line number, if the value is a number. One that is no word counts as -1. -/
def lineText? : Value → Option String
  | .whole n => some ("line " ++ toString (if fitsWord n then n else -1))
  | _        => none

/-- What a place adds to a message: the file and the line in brackets, as far as they are told. -/
def placeText : List Value → String
  | file :: line :: _ =>
    match (fileName? file).toList ++ (lineText? line).toList with
    | []    => ""
    | parts => " (" ++ ", ".intercalate parts ++ ")"
  | _                 => ""

/-- The text of an error about a mistake in a file: the message, then the place of the mistake. -/
def placedText : List Value → String
  | []               => Value.absent.text
  | [message, place] => message.text ++ placeText (place.members?.getD [])
  | message :: _     => message.text

-- ── All errors ───────────────────────────────────────────────────────────────────

/-- The text of a missing key, which is shown as it would be written down. -/
def keyText : List Value → String
  | [key] => key.literal
  | args  => plainText args

/-- The text of an error of the value family. -/
def valueText : ValueKind → List Value → String
  | .unencodable, args    => unencodableText args
  | .untranslatable, args => untranslatableText args
  | _, args               => plainText args

/-- The text of an error by its class and arguments. -/
def usualText (kind : ErrorClass) (args : List Value) : String :=
  if kind.isSystem then systemText kind args
  else match kind.value? with
    | some v => valueText v args
    | none   =>
      if kind.hasPlace then placedText args
      else if kind.name = "KeyError" then keyText args
      else plainText args

/-- The text of the error. -/
def text (e : Raised) : String :=
  e.text?.getD (usualText e.kind e.args)

end TapeMachine.Raised
