import TapeMachine.Text.Columns

/-!
# Writing numbers with a fraction

A binary number is written with the fewest decimal digits that read back as the same number, and of
those that are as few with the nearest. `Shortest.digits?` looks for them grid by grid: a grid of
`n` digits has two points next to the number, and the first grid where one of the two reads back is
taken.

* The digits are laid out around a point as long as the number is not far from one, and with a power
  of ten otherwise.
-/

namespace TapeMachine.Text

/-- A whole number times a power of two. -/
structure Binary where
  mantissa : Nat
  exponent : Int

/-- A finite number, exactly and without its sign. -/
def Binary.ofFloat (x : Float) : Binary :=
  let bits := x.toBits.toNat
  let e : Nat := bits / Nat.pow 2 52 % Nat.pow 2 11
  let f : Nat := bits % Nat.pow 2 52
  if e = 0 then ⟨f, -1074⟩ else ⟨Nat.pow 2 52 + f, (e : Int) - 1075⟩

/-- How often a power of ten goes into the number, as a fraction. -/
def Binary.ratio (b : Binary) (power : Int) : Nat × Nat :=
  (b.mantissa * Nat.pow 2 b.exponent.toNat * Nat.pow 10 (-power).toNat,
   Nat.pow 2 (-b.exponent).toNat * Nat.pow 10 power.toNat)

namespace Shortest

/-- Some digits, and the power of ten of the last of them. -/
structure Digits where
  digits : Nat
  power  : Int

/-- Whether digits read back as a number without a sign. -/
def readsBack (x : Float) (d : Digits) : Bool :=
  (Float.ofScientific d.digits (d.power < 0) d.power.natAbs).toBits == x.toBits

/-- The points next to a number on the grid of a power of ten, the nearer one first. Of two that are
    as near, the even one is first. -/
def neighbours (b : Binary) (power : Int) : List Digits :=
  let r := b.ratio power
  let below := r.1 / r.2
  let rest := 2 * (r.1 % r.2)
  if rest < r.2 ∨ rest = r.2 ∧ below % 2 = 0 then [⟨below, power⟩, ⟨below + 1, power⟩]
  else [⟨below + 1, power⟩, ⟨below, power⟩]

/-- The number of digits before the point; below one, the zeros behind it count as missing. Every
    number is at least one after 330 more digits. -/
def magnitude (b : Binary) : Int :=
  let r := b.ratio (-330)
  (Nat.toDigits 10 (r.1 / r.2)).length - 330

/-- The fewest digits that read back as a number without a sign. Seventeen always do. -/
def digits? (x : Float) : Option Digits :=
  let b := Binary.ofFloat x
  let m := magnitude b
  (List.range 17).findSome? fun n => (neighbours b (m - (n + 1 : Nat))).find? (readsBack x)

/-- The digits without zeros at the end. -/
def trimmed (d : Digits) : List Char :=
  ((Nat.toDigits 10 d.digits).reverse.dropWhile (· = '0')).reverse

/-- The power of ten behind the digits, in two or more digits and with a sign. -/
def powerText (n : Int) : List Char :=
  'e' :: (if n < 0 then '-' else '+') :: padLeft '0' 2 (Nat.toDigits 10 n.natAbs)

/-- Digits with a point after the first `point` of them. A point before the digits or behind them
    has zeros between. Far from the digits it stands behind the first, and a power of ten makes up
    for that. -/
def layout (point : Int) (ds : List Char) : List Char :=
  if point ≤ -4 ∨ 16 < point then
    let fraction := if ds.length ≤ 1 then [] else '.' :: ds.drop 1
    ds.take 1 ++ fraction ++ powerText (point - 1)
  else if point ≤ 0 then '0' :: '.' :: (List.replicate (-point).toNat '0' ++ ds)
  else
    let whole := ds.take point.toNat
    let fraction := ds.drop point.toNat
    whole ++ List.replicate (point.toNat - whole.length) '0' ++ '.' ::
      (if fraction.isEmpty then ['0'] else fraction)

/-- A number that is finite and has no sign. -/
def unsigned (x : Float) : List Char :=
  match if x == 0 then none else digits? x with
  | some d => layout ((Nat.toDigits 10 d.digits).length + d.power) (trimmed d)
  | none   => ['0', '.', '0']

end Shortest

/-- A binary number as it is written. -/
def shortest (x : Float) : String :=
  if x.isNaN then "nan"
  else
    let sign := if x.toBits.toNat < Nat.pow 2 63 then [] else ['-']
    let size := if x.isInf then ['i', 'n', 'f'] else Shortest.unsigned x.abs
    String.ofList (sign ++ size)

end TapeMachine.Text
