import TapeMachine.Text.Quoted
import TapeMachine.Text.Shortest

/-!
# Loose values

Some things reach the machine unchecked: the memory size of a configuration, the arguments of an
error that a stream raised, the number that a sink reports for a write, a program element that is
no operation. They are values of no fixed type, and what the machine needs of them is small: their
text, their kind, whether they are absent, and whether they count as zero.

* `Value.literal` is the text of a value as it would be written down, strings quoted.
* `Value.text` is the text of a value as a message shows it, strings bare.
* `Value.kind` is what messages call the kind of a value.
* `fitsWord` tells the numbers that the host can count to from those that it cannot.
-/

namespace TapeMachine

-- ── Words ────────────────────────────────────────────────────────────────────────

/-- The first number past the signed words of 64 bits. -/
def wordLimit : Int := 9223372036854775808

/-- Whether a number is a signed word of 64 bits. -/
def fitsWord (n : Int) : Bool :=
  -wordLimit ≤ n && n < wordLimit

/-- The wording when a number that must be a word is none. -/
def misfitText : String :=
  "cannot fit 'int' into an index-sized integer"

-- ── Values ───────────────────────────────────────────────────────────────────────

/-- A value of no fixed type. A number with a fraction or an exponent is a binary one. -/
inductive Value where
  | absent
  | flag (b : Bool)
  | whole (n : Int)
  | float (x : Float)
  | words (s : String)
  | items (xs : List Value)
  | entries (xs : List (String × Value))
  deriving Inhabited

namespace Value

mutual

/-- The value as it would be written down. -/
def literal : Value → String
  | absent     => "None"
  | flag b     => if b then "True" else "False"
  | whole n    => toString n
  | float x    => Text.shortest x
  | words s    => Text.quoted s
  | items xs   => "[" ++ ", ".intercalate (literals xs) ++ "]"
  | entries xs => "\x7b" ++ ", ".intercalate (pairs xs) ++ "\x7d"

/-- The members of a list, each written down. -/
def literals : List Value → List String
  | []      => []
  | x :: xs => x.literal :: literals xs

/-- The entries of a table, each written down. -/
def pairs : List (String × Value) → List String
  | []           => []
  | (k, x) :: xs => (Text.quoted k ++ ": " ++ x.literal) :: pairs xs

end

/-- The value as a message shows it. -/
def text : Value → String
  | words s => s
  | v       => v.literal

/-- A fixed row of values in round brackets; a row of one keeps a comma. -/
def row : List Value → String
  | [x] => "(" ++ x.literal ++ ",)"
  | xs  => "(" ++ ", ".intercalate (literals xs) ++ ")"

/-- What messages call the kind of a value. -/
def kind : Value → String
  | absent    => "NoneType"
  | flag _    => "bool"
  | whole _   => "int"
  | float _   => "float"
  | words _   => "str"
  | items _   => "list"
  | entries _ => "dict"

/-- Whether a value can be looked up in a table: what holds other values cannot. -/
def isKey : Value → Bool
  | items _   => false
  | entries _ => false
  | _         => true

/-- The whole number that a value stands for: a flag counts as one or zero. -/
def toInt? : Value → Option Int
  | flag b  => some (if b then 1 else 0)
  | whole n => some n
  | _       => none

/-- The binary number that a value stands for, as far as whole numbers have one. -/
def toFloat? : Value → Option Float
  | float x => some x
  | v       => v.toInt?.map Float.ofInt

/-- Whether a value counts as zero. -/
def isZero : Value → Bool
  | flag b  => !b
  | whole n => n == 0
  | float x => x == 0
  | _       => false

/-- What a value holds, one by one: the members of a list, the characters of a text, the names in a
    table. -/
def members? : Value → Option (List Value)
  | words s    => some (s.toList.map fun c => words (String.singleton c))
  | items xs   => some xs
  | entries xs => some (xs.map fun x => words x.1)
  | _          => none

/-- Whether a value is there at all. -/
def isAbsent : Value → Bool
  | absent => true
  | _      => false

/-- Whether a value counts as nothing: it is absent, zero, or has nothing in it. -/
def isNothing : Value → Bool
  | absent     => true
  | words s    => s = ""
  | items xs   => xs.isEmpty
  | entries xs => xs.isEmpty
  | v          => v.isZero

end Value

end TapeMachine
