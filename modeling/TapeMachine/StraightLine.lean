import TapeMachine.Structured

/-!
# Straight-line programs

Four operations have to do with the tape alone: counting up and down, and moving to either side. A
row of them, a straight line without brackets or streams, always does the same: the pointer ends so
and so many cells further on (`displacement`), and every cell has so and so much more
(`gain`), whatever was in the cells before.

The same can be said by counting what stands in the row. The pointer is moved by its moves to either
side (`pointerAfter`), and a cell is changed by the counts that are made while the pointer, as
counted, is there (`net`).
-/

namespace TapeMachine

/-- An operation that has to do with the tape alone. -/
inductive Stroke where
  | increment
  | decrement
  | next
  | previous
  deriving DecidableEq

namespace Stroke

/-- The operation among those that are no brackets. -/
def toElementary : Stroke → Elementary
  | increment => .increment
  | decrement => .decrement
  | next      => .next
  | previous  => .previous

/-- The operation of the machine. -/
def toOperation (x : Stroke) : Operation :=
  x.toElementary.toOperation

/-- What it does to a tape. -/
def apply (t : Tape) : Stroke → Except AddressError Tape
  | increment => t.increment
  | decrement => t.decrement
  | next      => .ok t.moveNext
  | previous  => .ok t.movePrevious

/-- How many cells the pointer goes to the right. -/
def shift : Stroke → Int
  | next     => 1
  | previous => -1
  | _        => 0

/-- How much more the current cell has. -/
def count : Stroke → Int
  | increment => 1
  | decrement => -1
  | _         => 0

/-- A row of strokes as a block. -/
def row : List Stroke → Block
  | []      => .done
  | x :: xs => .basic x.toElementary (row xs)

/-- One stroke after the other. -/
def applyAll : List Stroke → Tape → Except AddressError Tape
  | [], t      => .ok t
  | x :: xs, t =>
    match x.apply t with
    | .ok t    => applyAll xs t
    | .error e => .error e

/-- How many cells a row takes the pointer to the right. -/
def displacement : List Stroke → Int
  | []      => 0
  | x :: xs => x.shift + displacement xs

/-- What a row adds to the cell that is `r` cells to the right of where it begins, on a ring of `n`
    cells: its counts up less its counts down while the pointer is `r` cells further on, give or
    take some rounds. Behind a stroke that moves the pointer, the cell is that much nearer. -/
def gain (n : Nat) (r : Int) : List Stroke → Int
  | []      => 0
  | x :: xs => (if r % n = 0 then x.count else 0) + gain n (r - x.shift) xs

/-- Where a row leaves the pointer of a ring of `n` cells that begins at `m`. -/
def pointerAfter (n : Nat) (m : Int) (xs : List Stroke) : Int :=
  (m + xs.count next - xs.count previous) % n

/-- How often a row makes a stroke while the pointer, which begins at `m`, is at `a`. -/
def timesAt (x : Stroke) (n : Nat) (m a : Int) (xs : List Stroke) : Nat :=
  (List.range xs.length).countP fun i => xs[i]? = some x ∧ pointerAfter n m (xs.take i) = a

/-- What a row adds to the cell at `a`: its counts up less its counts down while the pointer is
    there. -/
def net (n : Nat) (m a : Int) (xs : List Stroke) : Int :=
  increment.timesAt n m a xs - decrement.timesAt n m a xs

/-- The pointer is at `a` at some time of the row, its beginning and its end included. -/
def Visits (n : Nat) (m a : Int) (xs : List Stroke) : Prop :=
  ∃ i ≤ xs.length, pointerAfter n m (xs.take i) = a

/-- After how many times in a row a stroke comes round to where it began. -/
def period (n : Nat) : Stroke → Nat
  | increment => 256
  | decrement => 256
  | next      => n
  | previous  => n

end Stroke

end TapeMachine
