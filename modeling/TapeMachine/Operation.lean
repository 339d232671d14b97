import TapeMachine.Token

/-!
# Operations

What the machine can execute. Each operation comes from one token: `Operation.ofToken` and
`Operation.toToken` are inverse bijections, so a program text and its operations determine each
other.
-/

namespace TapeMachine

/-- An operation of the machine. -/
inductive Operation where
  /-- Add one to the current cell. -/
  | increment
  /-- Take one from the current cell. -/
  | decrement
  /-- Move the pointer one cell to the right. -/
  | next
  /-- Move the pointer one cell to the left. -/
  | previous
  /-- Read one byte into the current cell. -/
  | input
  /-- Write the current cell as one byte. -/
  | output
  /-- Jump past the matching `loopBack` if the current cell is zero. -/
  | loopForward
  /-- Jump back behind the matching `loopForward` if the current cell is not zero. -/
  | loopBack
  deriving DecidableEq, Inhabited

namespace Operation

/-- Every operation, in the order of their definition. -/
def all : List Operation :=
  [increment, decrement, next, previous, input, output, loopForward, loopBack]

/-- The name of an operation, as trace lines show it. -/
def name : Operation → String
  | increment   => "INC"
  | decrement   => "DEC"
  | next        => "NEXT"
  | previous    => "PREV"
  | input       => "IN"
  | output      => "OUT"
  | loopForward => "LOOP_FORWARD"
  | loopBack    => "LOOP_BACK"

/-- The word by which an operation can be looked up: its name in small letters. -/
def word : Operation → String
  | increment   => "inc"
  | decrement   => "dec"
  | next        => "next"
  | previous    => "prev"
  | input       => "in"
  | output      => "out"
  | loopForward => "loop_forward"
  | loopBack    => "loop_back"

/-- The operation written as a name of its kind. -/
def literal (op : Operation) : String :=
  "Operation." ++ op.name

/-- The operation whose word is a text. -/
def ofText? (s : String) : Option Operation :=
  all.find? fun op => op.word = s

/-- The operation of a name as `literal` writes it. -/
def ofLiteral? (s : String) : Option Operation :=
  all.find? fun op => op.literal = s

/-- The operation that a token stands for. -/
def ofToken : Token → Operation
  | .increment  => increment
  | .decrement  => decrement
  | .shiftRight => next
  | .shiftLeft  => previous
  | .input      => input
  | .output     => output
  | .loopStart  => loopForward
  | .loopEnd    => loopBack

/-- The token that stands for an operation. -/
def toToken : Operation → Token
  | increment   => .increment
  | decrement   => .decrement
  | next        => .shiftRight
  | previous    => .shiftLeft
  | input       => .input
  | output      => .output
  | loopForward => .loopStart
  | loopBack    => .loopEnd

@[simp] theorem toToken_ofToken (t : Token) : (ofToken t).toToken = t := by
  cases t <;> rfl

@[simp] theorem ofToken_toToken (op : Operation) : ofToken op.toToken = op := by
  cases op <;> rfl

/-- The operations of a list of tokens, in order. -/
def ofTokens (ts : List Token) : List Operation :=
  ts.map ofToken

/-- The tokens of a list of operations, in order. -/
def toTokens (ops : List Operation) : List Token :=
  ops.map toToken

end Operation

end TapeMachine
