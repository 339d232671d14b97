/-!
# Columns

Numbers and names set in columns of a fixed width, as log lines and memory dumps show them.
A text that is wider than its column is kept whole.
-/

namespace TapeMachine.Text

/-- The text moved to the right end of a column, filled with `fill` before it. -/
def padLeft (fill : Char) (width : Nat) (s : List Char) : List Char :=
  List.replicate (width - s.length) fill ++ s

/-- The text at the left end of a column, filled with blanks after it. -/
def padRight (width : Nat) (s : List Char) : List Char :=
  s ++ List.replicate (width - s.length) ' '

/-- A number right-aligned with zeros; a minus sign comes before the zeros and takes one place. -/
def zeroPadded (width : Nat) (n : Int) : String :=
  if n < 0 then String.ofList ('-' :: padLeft '0' (width - 1) (Nat.toDigits 10 n.natAbs))
  else String.ofList (padLeft '0' width (Nat.toDigits 10 n.natAbs))

/-- A number right-aligned with blanks. -/
def rightAligned (width : Nat) (n : Nat) : String :=
  String.ofList (padLeft ' ' width (Nat.toDigits 10 n))

/-- A name left-aligned with blanks. -/
def leftAligned (width : Nat) (s : String) : String :=
  String.ofList (padRight width s.toList)

/-- The digit of a value below sixteen, in capitals. -/
def upperHexDigit (n : Nat) : Char :=
  if n < 10 then Char.ofNat (48 + n) else Char.ofNat (55 + n)

/-- A byte as two hexadecimal digits in capitals. -/
def hexByte (b : UInt8) : List Char :=
  [upperHexDigit (b.toNat / 16), upperHexDigit (b.toNat % 16)]

/-- A code point as `width` or more hexadecimal digits in small letters. -/
def lowerHex (width : Nat) (n : Nat) : List Char :=
  padLeft '0' width (Nat.toDigits 16 n)

end TapeMachine.Text
