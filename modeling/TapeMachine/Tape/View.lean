import TapeMachine.Tape
import TapeMachine.Text.Columns

/-!
# Views of the tape

Three ways to look at many cells at once, none of which changes the tape.

* `Tape.snapshot` copies a stretch of cells, cut to the tape at both ends.
* `Tape.dump` shows a stretch in hexadecimal, the cell whose address is the pointer in brackets.
* `Tape.nonzero` lists the cells that hold something.
-/

namespace TapeMachine.Tape

/-- One end of a stretch: a number below zero counts from the right end, and what is still off the
    tape is cut to it. -/
def bound (size : Nat) (a : Int) : Nat :=
  if a < 0 then (a + size).toNat else min a.toNat size

/-- The cells of a stretch that begins at `start`, up to the end of the tape when no length is
    given. -/
def snapshot (t : Tape) (start : Int) (length : Option Int) : Array UInt8 :=
  let stop := match length with
    | some n => start + n
    | none   => t.size
  t.cells.extract (bound t.size start) (bound t.size stop)

/-- One cell of a dump: two digits, in brackets if the address is that of the pointer. -/
def dumpCell (t : Tape) (a : Int) (i : Fin t.cells.size) : List Char :=
  if a = t.pointer then '[' :: Text.hexByte (t.get i) ++ [']']
  else ' ' :: Text.hexByte (t.get i) ++ [' ']

/-- The dump of `count` cells from an address on, after what is shown already. -/
def dumpFrom (t : Tape) (shown : Array Char) : Nat → Int → Except AddressError (Array Char)
  | 0, _         => .ok shown
  | count + 1, a =>
    match t.locate a with
    | .ok i    => t.dumpFrom (shown ++ t.dumpCell a i) count (a + 1)
    | .error e => .error e

/-- The cells of a stretch in hexadecimal. It ends at the right end of the tape, but an address
    below zero is one counted from there and so shows the same cell again. -/
def dump (t : Tape) (start length : Int) : Except AddressError String :=
  match t.dumpFrom #[] (min (start + length) t.size - start).toNat start with
  | .ok shown => .ok (String.ofList shown.toList)
  | .error e  => .error e

/-- The stretch of eight cells that the pointer is in, as a trace shows it. -/
def window (t : Tape) : Except AddressError String :=
  t.dump (t.pointer / 8 * 8) 8

/-- The cells below an address that are not zero, before those found already. -/
def nonzeroBelow (t : Tape) : Nat → List (Nat × UInt8) → List (Nat × UInt8)
  | 0, found     => found
  | a + 1, found =>
    match t.cells[a]? with
    | none   => t.nonzeroBelow a found
    | some v => t.nonzeroBelow a (if v = 0 then found else (a, v) :: found)

/-- The addresses and values of the cells that are not zero, from the left. -/
def nonzero (t : Tape) : List (Nat × UInt8) :=
  t.nonzeroBelow t.size []

end TapeMachine.Tape
