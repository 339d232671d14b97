/-!
# Tokens

The eight characters that mean something in a program text. All others are comments.

* `Token.symbol` and `Token.ofChar?` are inverse to one another.
* `Token.render` writes a list of tokens as program text.
-/

namespace TapeMachine

/-- A significant character of the program text. -/
inductive Token where
  | increment
  | decrement
  | shiftRight
  | shiftLeft
  | input
  | output
  | loopStart
  | loopEnd
  deriving DecidableEq, Inhabited

namespace Token

/-- Every token, in the order of their definition. -/
def all : List Token :=
  [increment, decrement, shiftRight, shiftLeft, input, output, loopStart, loopEnd]

/-- The short name of a token. -/
def name : Token → String
  | increment  => "INC"
  | decrement  => "DEC"
  | shiftRight => "SHR"
  | shiftLeft  => "SHL"
  | input      => "IN"
  | output     => "OUT"
  | loopStart  => "STL"
  | loopEnd    => "ENDL"

/-- The character of a token. -/
def symbol : Token → Char
  | increment  => '+'
  | decrement  => '-'
  | shiftRight => '>'
  | shiftLeft  => '<'
  | input      => ','
  | output     => '.'
  | loopStart  => '['
  | loopEnd    => ']'

/-- The byte of a token: the code point of its character. -/
def byte (t : Token) : UInt8 :=
  t.symbol.toNat.toUInt8

/-- The token of a character, if it is a significant one. -/
def ofChar? : Char → Option Token
  | '+' => some increment
  | '-' => some decrement
  | '>' => some shiftRight
  | '<' => some shiftLeft
  | ',' => some input
  | '.' => some output
  | '[' => some loopStart
  | ']' => some loopEnd
  | _   => none

/-- The token of a byte, if it is a significant one. -/
def ofByte? (b : UInt8) : Option Token :=
  if b = 43 then some increment
  else if b = 45 then some decrement
  else if b = 62 then some shiftRight
  else if b = 60 then some shiftLeft
  else if b = 44 then some input
  else if b = 46 then some output
  else if b = 91 then some loopStart
  else if b = 93 then some loopEnd
  else none

/-- The token written as a name of its kind. -/
def literal (t : Token) : String :=
  "Token." ++ t.name

/-- The token whose character is the whole of a text. -/
def ofText? (s : String) : Option Token :=
  match s.toList with
  | [c] => ofChar? c
  | _   => none

/-- The token of a name as `literal` writes it. -/
def ofLiteral? (s : String) : Option Token :=
  all.find? fun t => t.literal = s

/-- A list of tokens as program text, without comments. -/
def render (ts : List Token) : List Char :=
  ts.map symbol

/-- Reading the character of a token gives the token. -/
@[simp] theorem ofChar?_symbol (t : Token) : ofChar? t.symbol = some t := by
  cases t <;> rfl

/-- Reading the byte of a token gives the token. -/
@[simp] theorem ofByte?_byte (t : Token) : ofByte? t.byte = some t := by
  cases t <;> rfl

end Token

end TapeMachine
