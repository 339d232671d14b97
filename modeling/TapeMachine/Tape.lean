import TapeMachine.Value

/-!
# The tape

A row of byte cells that is closed to a ring, and a pointer to one of them. Cells count modulo 256
and the pointer comes back to the other end when it leaves one.

* **Addresses** may be counted from either end: on a tape of `n` cells the address `-k` is the cell
  `n - k`. `Tape.locate` is the only place that knows this; reading and writing go through it.
* **The pointer** moves inside the tape when it starts there, but a caller may set it to any
  number. It is therefore an integer, and whether it is on the tape shows when it is used.
-/

namespace TapeMachine

/-- The number of cells of a tape when nothing else is asked for. -/
def defaultSize : Nat := 30000

/-- What keeps one cell in range: the greatest value that a cell can hold. -/
def cellMask : Nat := 255

/-- Why an address names no cell. -/
inductive AddressError where
  /-- The address is outside the tape. -/
  | outside
  /-- The address does not fit a signed word of 64 bits. -/
  | unrepresentable
  deriving DecidableEq

/-- The wording of an address error. -/
def AddressError.message : AddressError → String
  | outside         => "bytearray index out of range"
  | unrepresentable => misfitText

/-- Why a value is no size for a tape. -/
inductive SizeError where
  /-- The value is not a positive whole number. -/
  | notPositive (v : Value)
  /-- The number does not fit a signed word of 64 bits. -/
  | tooLarge
  /-- No host has room for so many cells. -/
  | noRoom

/-- The wording of a size error; lack of room goes without words. -/
def SizeError.message : SizeError → String
  | notPositive v => "Memory size must be a positive integer, got " ++ v.literal
  | tooLarge      => misfitText
  | noRoom        => ""

/-- The number of cells that no host has room for, with those above it. -/
def roomLimit : Int := 4294967296

/-- A ring of byte cells, at least one, with a pointer that any number may be assigned to. -/
structure Tape where
  cells    : Array UInt8
  pointer  : Int := 0
  size_pos : 0 < cells.size

namespace Tape

-- ── Making a tape ────────────────────────────────────────────────────────────────

/-- A tape of `n` zero cells. -/
def blank (n : Nat) (h : 0 < n) : Tape where
  cells    := Array.replicate n 0
  size_pos := by rw [Array.size_replicate]; exact h

/-- The zero tape of the size that a value asks for. -/
def ofSize (v : Value) : Except SizeError Tape :=
  match v with
  | .whole n =>
    if h : 0 < n.toNat then
      if n < roomLimit then .ok (blank n.toNat h)
      else .error (if n < wordLimit then .noRoom else .tooLarge)
    else .error (.notPositive v)
  | _ => .error (.notPositive v)

/-- The number of cells. -/
def size (t : Tape) : Nat :=
  t.cells.size

/-- Every cell zero and the pointer at the first one. -/
def reset (t : Tape) : Tape :=
  blank t.size t.size_pos

-- ── Cells ────────────────────────────────────────────────────────────────────────

/-- The cell that an address names, counted from the left end or, below zero, from the right. -/
def locate (t : Tape) (a : Int) : Except AddressError (Fin t.cells.size) :=
  if h : 0 ≤ a ∧ a < t.cells.size then .ok ⟨a.toNat, by omega⟩
  else if h : -(t.cells.size : Int) ≤ a ∧ a < 0 then .ok ⟨(a + t.cells.size).toNat, by omega⟩
  else if -wordLimit ≤ a ∧ a < wordLimit then .error .outside
  else .error .unrepresentable

/-- The cell under the pointer. -/
def here (t : Tape) : Except AddressError (Fin t.cells.size) :=
  t.locate t.pointer

/-- The value of a cell. -/
def get (t : Tape) (i : Fin t.cells.size) : UInt8 :=
  t.cells[i]

/-- The tape with one cell changed. -/
def set (t : Tape) (i : Fin t.cells.size) (v : UInt8) : Tape where
  cells    := t.cells.set i v
  pointer  := t.pointer
  size_pos := by rw [Array.size_set]; exact t.size_pos

/-- The value at an address, the pointer when none is given. -/
def read (t : Tape) (a : Option Int) : Except AddressError UInt8 :=
  match t.locate (a.getD t.pointer) with
  | .ok i    => .ok (t.get i)
  | .error e => .error e

/-- The value under the pointer. -/
def current (t : Tape) : Except AddressError UInt8 :=
  t.read none

/-- Write a number modulo 256 at an address, the pointer when none is given. -/
def write (t : Tape) (v : Int) (a : Option Int) : Except AddressError Tape :=
  match t.locate (a.getD t.pointer) with
  | .ok i    => .ok (t.set i (UInt8.ofInt v))
  | .error e => .error e

/-- Add one to the current cell. -/
def increment (t : Tape) : Except AddressError Tape :=
  match t.here with
  | .ok i    => .ok (t.set i (t.get i + 1))
  | .error e => .error e

/-- Take one from the current cell. -/
def decrement (t : Tape) : Except AddressError Tape :=
  match t.here with
  | .ok i    => .ok (t.set i (t.get i - 1))
  | .error e => .error e

-- ── The pointer ──────────────────────────────────────────────────────────────────

/-- The pointer one to the right; exactly at the right end it comes back to the first cell. -/
def moveNext (t : Tape) : Tape :=
  { t with pointer := if t.pointer + 1 = t.cells.size then 0 else t.pointer + 1 }

/-- The pointer one to the left; from the first cell it goes to the last. -/
def movePrevious (t : Tape) : Tape :=
  { t with pointer := if t.pointer = 0 then t.cells.size - 1 else t.pointer - 1 }

/-- The pointer put anywhere, on the tape or off it. -/
def setPointer (t : Tape) (p : Int) : Tape :=
  { t with pointer := p }

end Tape

end TapeMachine
