import TapeMachine.Text.Columns
import TapeMachine.Text.Half
import TapeMachine.Text.Printable

/-!
# Quoted text

How a text stands inside a message: between quotes, with every character that could not be read
back from the line written as an escape. Single quotes are used unless the text holds a single
quote and no double one.
-/

namespace TapeMachine.Text

/-- The quote that goes around a text. -/
def quoteFor (s : List Char) : Char :=
  if s.contains '\'' && !s.contains '"' then '"' else '\''

/-- A character written by its code point, in two, four or eight digits. -/
def numbered (c : Char) : List Char :=
  let n := codePoint c
  if n < 0x100 then '\\' :: 'x' :: lowerHex 2 n
  else if n < 0x10000 then '\\' :: 'u' :: lowerHex 4 n
  else '\\' :: 'U' :: lowerHex 8 n

/-- One character inside quotes `q`. The backslash and the quote in use are escaped, three control
    characters have a letter, and any other character that is not printable is written by its code
    point. -/
def escaped (q c : Char) : List Char :=
  if c = '\\' ∨ c = q then ['\\', c]
  else if c = '\n' then ['\\', 'n']
  else if c = '\r' then ['\\', 'r']
  else if c = '\t' then ['\\', 't']
  else if isPrintable c then [c]
  else numbered c

/-- A text between quotes. -/
def quoted (s : String) : String :=
  let q := quoteFor s.toList
  String.ofList (q :: s.toList.flatMap (escaped q) ++ [q])

end TapeMachine.Text
