/-!
# Reading numbers with a fraction

A number with a fraction or an exponent is written as a sign, digits with a point among them, and a
power of ten. `Decimal.ofText` reads it as a whole number times a power of ten, which is exact, and
`Decimal.toFloat` is the nearest binary number.
-/

namespace TapeMachine.Text

/-- A whole number times a power of ten, with a sign of its own so that zero can have one. -/
structure Decimal where
  negative : Bool := false
  digits   : Nat
  exponent : Int

namespace Decimal

/-- The number that decimal digits stand for; other characters are passed over. -/
def natOfDigits (cs : List Char) : Nat :=
  (cs.filter Char.isDigit).foldl (fun n c => n * 10 + (c.toNat - 48)) 0

/-- The whole number that decimal digits after an optional sign stand for. -/
def intOfDigits (cs : List Char) : Int :=
  if cs.head? = some '-' then -(natOfDigits cs : Int) else natOfDigits cs

/-- Whether a character stands before the power of ten. -/
def inMantissa (c : Char) : Bool :=
  c ≠ 'e' && c ≠ 'E'

/-- The number that a text stands for. -/
def ofText (cs : List Char) : Decimal where
  negative := cs.head? = some '-'
  digits   := natOfDigits mantissa
  exponent := intOfDigits (cs.drop (mantissa.length + 1)) - (places : Int)
where
  mantissa := cs.takeWhile inMantissa
  places   := ((mantissa.dropWhile (· ≠ '.')).filter Char.isDigit).length

/-- The nearest binary number. -/
def toFloat (d : Decimal) : Float :=
  let x := Float.ofScientific d.digits (d.exponent < 0) d.exponent.natAbs
  if d.negative then -x else x

end Decimal

/-- The binary number that a text stands for; two words stand for numbers without digits. -/
def floatOfText (s : String) : Float :=
  let cs := s.toList.filter fun c => !c.isWhitespace
  let sign : Float := if cs.head? = some '-' then -1 else 1
  match (cs.filter Char.isAlpha).map Char.toLower with
  | 'i' :: _ => sign / 0
  | 'n' :: _ => 0 / 0
  | _        => (Decimal.ofText cs).toFloat

end TapeMachine.Text
