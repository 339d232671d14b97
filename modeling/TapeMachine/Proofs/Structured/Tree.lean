import Mathlib.Logic.ExistsUnique
import TapeMachine.Proofs.Bracket.Depth
import TapeMachine.Proofs.Machine.Elementary

/-!
# Trees and balanced programs

A tree and the operations it is written as determine each other: the operations of a tree are
balanced (`Block.depthAfter_elements`), and **operations that are balanced are those of exactly one
tree** (`Block.isBalanced_iff_existsUnique`).

A tree is read back from the left. Where `d` loops are open, what is left of the operations is one
block and then `d` more, each behind the bracket that closes a loop.
-/

namespace TapeMachine

namespace Block

open Program

variable {d : Nat} {ops : List Operation}

/-- The operations of a block as elements of a program. -/
def elements (b : Block) : List Element :=
  b.flatten.map .operation

@[simp] theorem elements_done : done.elements = [] := rfl

@[simp] theorem elements_basic (op : Elementary) (rest : Block) :
    (basic op rest).elements = .operation op.toOperation :: rest.elements := rfl

/-- A loop is its body between two brackets, and the rest behind them. -/
@[simp] theorem elements_loop (body rest : Block) :
    (loop body rest).elements = .opening :: (body.elements ++ .closing :: rest.elements) := by
  simp [elements, flatten]

/-- A block has as many elements as its length says. -/
@[simp] theorem length_elements (b : Block) : b.elements.length = b.length := by
  rw [elements, List.length_map, length_flatten]

/-- An operation that is no bracket leaves the depth as it is. -/
theorem depthAfter_elementary (op : Elementary) (d : Nat) (xs : List Element) :
    depthAfter d (.operation op.toOperation :: xs) = depthAfter d xs := by
  apply depthAfter_other
  · intro h
    exact op.toOperation_ne.1 (Element.operation.inj h)
  · intro h
    exact op.toOperation_ne.2 (Element.operation.inj h)

/-- Behind a block as many loops are open as before it. -/
theorem depthAfter_elements (b : Block) (d : Nat) : depthAfter d b.elements = some d := by
  induction b generalizing d with
  | done => rfl
  | basic op rest ih =>
      rw [elements_basic, depthAfter_elementary]
      exact ih d
  | loop body rest ihb ihr =>
      rw [elements_loop, depthAfter_opening, depthAfter_append, ihb]
      exact ihr d

-- ── Reading a tree back ──────────────────────────────────────────────────────────

/-- Blocks behind one another, each behind the bracket that closes a loop. -/
def closing (bs : List Block) : List Operation :=
  bs.flatMap fun b => .loopBack :: b.flatten

/-- Operations that close all of `d` open loops are one block and `d` blocks behind brackets. -/
theorem exists_of_depthAfter (h : depthAfter d (ops.map .operation) = some 0) :
    ∃ b bs, bs.length = d ∧ flatten b ++ closing bs = ops := by
  induction ops generalizing d with
  | nil =>
      obtain rfl : d = 0 := Option.some.inj h
      exact ⟨done, [], rfl, rfl⟩
  | cons op ops ih =>
      rw [List.map_cons] at h
      rcases op.elementary_or_bracket with ⟨e, rfl⟩ | rfl | rfl
      · rw [depthAfter_elementary] at h
        obtain ⟨b, bs, hbs, hops⟩ := ih h
        exact ⟨basic e b, bs, hbs, congrArg (e.toOperation :: ·) hops⟩
      · obtain ⟨b, bs, hbs, hops⟩ := ih (d := d + 1) h
        cases bs with
        | nil => cases hbs
        | cons b' bs =>
            refine ⟨loop b b', bs, Nat.succ.inj hbs, ?_⟩
            rw [← hops]
            simp [flatten, closing]
      · cases d with
        | zero => cases h
        | succ d =>
            obtain ⟨b, bs, hbs, hops⟩ := ih (d := d) h
            refine ⟨done, b :: bs, congrArg Nat.succ hbs, ?_⟩
            rw [← hops]
            rfl

/-- What may stand behind a block: nothing, or the end of the loop around it. -/
def EndsBlock (rest : List Operation) : Prop :=
  ∀ op ops, rest = op :: ops → op = .loopBack

/-- Of operations that begin with a block, the block and what stands behind it are determined. -/
theorem flatten_append_inj {b b' : Block} {r r' : List Operation} (hr : EndsBlock r)
    (hr' : EndsBlock r') (h : b.flatten ++ r = b'.flatten ++ r') : b = b' ∧ r = r' := by
  induction b generalizing b' r r' with
  | done =>
      cases b' with
      | done => exact ⟨rfl, h⟩
      | basic op rest => exact absurd (hr _ _ h) op.toOperation_ne.2
      | loop body rest => exact nomatch hr _ _ h
  | basic op rest ih =>
      cases b' with
      | done => exact absurd (hr' _ _ h.symm) op.toOperation_ne.2
      | basic op' rest' =>
          obtain ⟨hop, htail⟩ := List.cons.inj h
          obtain rfl := Elementary.toOperation_inj hop
          obtain ⟨rfl, hrr⟩ := ih hr hr' htail
          exact ⟨rfl, hrr⟩
      | loop body rest' => exact absurd (List.cons.inj h).1 op.toOperation_ne.1
  | loop body rest ihb ihr =>
      cases b' with
      | done => exact nomatch hr' _ _ h.symm
      | basic op' rest' => exact absurd (List.cons.inj h).1.symm op'.toOperation_ne.1
      | loop body' rest' =>
          have htail : body.flatten ++ (.loopBack :: (rest.flatten ++ r))
              = body'.flatten ++ (.loopBack :: (rest'.flatten ++ r')) := by
            simpa [flatten] using h
          have hends (xs : List Operation) : EndsBlock (.loopBack :: xs) :=
            fun op ops hop => (List.cons.inj hop).1.symm
          obtain ⟨rfl, hback⟩ := ihb (hends _) (hends _) htail
          obtain ⟨rfl, hrr⟩ := ihr hr hr' (List.cons.inj hback).2
          exact ⟨rfl, hrr⟩

/-- A program is the text of one tree at most. -/
theorem flatten_inj {b b' : Block} (h : b.flatten = b'.flatten) : b = b' := by
  have hnil : EndsBlock [] := fun _ _ hop => nomatch hop
  refine (flatten_append_inj hnil hnil ?_).1
  rw [h]

/-- Operations are balanced exactly if they are those of a tree, and then of one tree only. -/
theorem isBalanced_iff_existsUnique :
    isBalanced (ops.map .operation) = true ↔ ∃! b : Block, b.flatten = ops := by
  constructor
  · intro h
    obtain ⟨b, bs, hbs, hops⟩ := exists_of_depthAfter (of_decide_eq_true h)
    obtain rfl := List.eq_nil_of_length_eq_zero hbs
    rw [closing, List.flatMap_nil, List.append_nil] at hops
    exact ⟨b, hops, fun b' hb' => flatten_inj (hb'.trans hops.symm)⟩
  · rintro ⟨b, rfl, -⟩
    exact decide_eq_true (b.depthAfter_elements 0)

end Block

end TapeMachine
