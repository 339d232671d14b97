import TapeMachine.Raised

/-!
# Operands that do not fit

What is raised when loose values are added, compared or cut to a cell and do not go together.
Numbers of all kinds add up, flags among them, and so do two texts or two lists; nothing else does.
A sum of numbers is a whole one if both are, and a binary one otherwise.
-/

namespace TapeMachine.Raised

/-- The error of two kinds of values that an operator does not take. -/
def badOperands (operator left right : String) : Raised :=
  badKind ("unsupported operand type(s) for " ++ operator ++ ": '" ++ left ++ "' and '" ++ right
    ++ "'")

/-- The error of a value that is put behind one of a kind that only takes its own kind. -/
def badSequel (kind : String) (v : Value) : Raised :=
  badKind ("can only concatenate " ++ kind ++ " (not \"" ++ v.kind ++ "\") to " ++ kind)

/-- The error of two kinds of values that have no order between them. -/
def unordered (left right : String) : Raised :=
  badKind ("'<' not supported between instances of '" ++ left ++ "' and '" ++ right ++ "'")

/-- What is wrong with making a value a binary number: it is too large for one. -/
def floatError? (v : Value) : Option Raised :=
  match v.toInt? with
  | none   => none
  | some n =>
    if (Float.ofInt n).isInf then some (named "OverflowError" "int too large to convert to float")
    else none

/-- What is wrong with adding two values. -/
def sumError? : Value → Value → Option Raised
  | .words _, .words _ => none
  | .items _, .items _ => none
  | .words _, v        => some (badSequel "str" v)
  | .items _, v        => some (badSequel "list" v)
  | v, w               =>
    match v.toFloat?, w.toFloat? with
    | some _, some _ =>
      if v.toInt?.isSome && w.toInt?.isSome then none else floatError? v <|> floatError? w
    | _, _           => some (badOperands "+" v.kind w.kind)

/-- The number that a cell takes from a value: a whole number, or the code point of a text of one
    character. -/
def cellNumber (v : Value) : Except Raised Int :=
  match v with
  | .words s =>
    match s.toList with
    | [c] => .ok (Text.codePoint c)
    | cs  =>
      .error (badKind ("ord() expected a character, but string of length " ++ toString cs.length
        ++ " found"))
  | v        => v.toInt?.elim (.error (badOperands "&" v.kind "int")) .ok

end TapeMachine.Raised
