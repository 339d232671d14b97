import TapeMachine.Element

/-!
# Bracket partners

Loops are found by counting brackets. From a `loopForward` the program is read to the right, from
a `loopBack` to the left, and the partner is the first bracket of the other kind that no bracket
in between has claimed. Elements that are no brackets count for nothing.

The two searches never consult one another. Each is a recursion on what is left of the program in
its direction.
-/

namespace TapeMachine.Program

/-- Search to the right from `i` over `left` places, with `depth` inner loops open. -/
def searchRight (p : Program) : (left depth i : Nat) → Option Nat
  | 0, _, _            => none
  | left + 1, depth, i =>
    match p[i]? with
    | some (.operation .loopForward) => p.searchRight left (depth + 1) (i + 1)
    | some (.operation .loopBack)    =>
      match depth with
      | 0         => some i
      | depth + 1 => p.searchRight left depth (i + 1)
    | _ => p.searchRight left depth (i + 1)

/-- Search to the left over the first `left` places, with `depth` inner loops open. -/
def searchLeft (p : Program) : (left depth : Nat) → Option Nat
  | 0, _            => none
  | left + 1, depth =>
    match p[left]? with
    | some (.operation .loopBack)    => p.searchLeft left (depth + 1)
    | some (.operation .loopForward) =>
      match depth with
      | 0         => some left
      | depth + 1 => p.searchLeft left depth
    | _ => p.searchLeft left depth

/-- The place of the `loopBack` that belongs to a `loopForward` at `i`. -/
def partnerRight (p : Program) (i : Nat) : Option Nat :=
  p.searchRight (p.size - (i + 1)) 0 (i + 1)

/-- The place of the `loopForward` that belongs to a `loopBack` at `j`. -/
def partnerLeft (p : Program) (j : Nat) : Option Nat :=
  p.searchLeft j 0

end TapeMachine.Program
