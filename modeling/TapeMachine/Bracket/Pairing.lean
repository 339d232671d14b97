import TapeMachine.Bracket

/-!
# Pairing brackets with a stack

The other way to find which brackets belong together: one pass from left to right with a stack of
the `loopForward`s that are still open. A `loopBack` closes the last of them, or stays alone if
there is none; what is on the stack at the end stays alone as well. The pass is written down on its
own and shares nothing with the searches for a partner.
-/

namespace TapeMachine.Program

/-- The pairs found from place `i` on, with the places of the open brackets, the last one first. -/
def pairsFrom : (i : Nat) → (stack : List Nat) → List Element → List (Nat × Nat)
  | _, _, []          => []
  | i, stack, x :: xs =>
    match x, stack with
    | .operation .loopForward, _        => pairsFrom (i + 1) (i :: stack) xs
    | .operation .loopBack, o :: stack' => (o, i) :: pairsFrom (i + 1) stack' xs
    | _, _                              => pairsFrom (i + 1) stack xs

/-- The pairs of brackets that belong together, by the place of the `loopBack`. -/
def pairs (p : Program) : List (Nat × Nat) :=
  pairsFrom 0 [] p.toList

/-- How many brackets stay open after some elements with `depth` open before them; none if a
    `loopBack` finds nothing to close. -/
def depthAfter : (depth : Nat) → List Element → Option Nat
  | depth, []      => some depth
  | depth, x :: xs =>
    match x, depth with
    | .operation .loopForward, _      => depthAfter (depth + 1) xs
    | .operation .loopBack, 0         => none
    | .operation .loopBack, depth + 1 => depthAfter depth xs
    | _, _                            => depthAfter depth xs

/-- Whether every bracket among some elements has its partner there. -/
def isBalanced (xs : List Element) : Bool :=
  depthAfter 0 xs = some 0

end TapeMachine.Program
