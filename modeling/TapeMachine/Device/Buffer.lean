/-!
# Buffers

A stream in memory: a row of items with one position that reads and writes share. A read hands
over the items from the position on, a write overwrites them and makes the row longer where it
ends; both move the position behind what they touched.
-/

namespace TapeMachine

/-- A row of items and the position of the next one. -/
structure Buffer (α : Type) where
  contents : Array α := #[]
  position : Nat := 0
  closed   : Bool := false

namespace Buffer

variable {α : Type}

/-- The items that a read of `n` hands over: no more than there are, all of them below zero. -/
def peek (b : Buffer α) (n : Int) : List α :=
  let stop := if n < 0 then b.contents.size else b.position + n.toNat
  (b.contents.extract b.position stop).toList

/-- The buffer after a read that handed over `k` items. -/
def skip (b : Buffer α) (k : Nat) : Buffer α :=
  { b with position := b.position + k }

/-- Put one item at the position. -/
def put (b : Buffer α) (a : α) : Buffer α :=
  if h : b.position < b.contents.size then
    { b with contents := b.contents.set b.position a, position := b.position + 1 }
  else { b with contents := b.contents.push a, position := b.position + 1 }

/-- Put a row of items, one after the other. -/
def putAll (b : Buffer α) (as : List α) : Buffer α :=
  as.foldl put b

end Buffer

end TapeMachine
