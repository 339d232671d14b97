import Mathlib.Tactic.TFAE
import TapeMachine.Proofs.Bracket.Matching
import TapeMachine.Proofs.Machine.Step

/-!
# One matching for both jumps

The machine jumps at a `loopForward` by one search and at a `loopBack` by another, and neither of
them remembers what the other has found. They agree all the same: **both follow the one matching**
of the program, which a single pass with a stack finds as well. This holds in every program, also
where some brackets belong to nothing.

* `goesTo_behind_closing`, `goesTo_behind_opening` — where a taken jump goes.
* `unmatchedOpen_iff`, `unmatchedClose_iff` — when there is nowhere to go.
* `searches_agree_with_stack` — all of it together, with the shape of the matching.
-/

namespace TapeMachine

namespace Machine

variable {σ : Type} {ch : Channels σ} {vm : Machine} {s : σ} {p : Program} {i j : Nat} {b : UInt8}

/-- A machine stands at place `k` of a program, with the pointer on the tape and `b` under it. -/
structure StandsAt (vm : Machine) (p : Program) (k : Nat) (b : UInt8) : Prop where
  program : vm.program = p
  ip      : vm.ip = k
  onTape  : vm.tape.OnTape
  cell    : vm.tape.current = .ok b

/-- The next step succeeds and continues at place `k`. -/
def GoesTo (ch : Channels σ) (vm : Machine) (s : σ) (k : Nat) : Prop :=
  (vm.step ch s).result = .ok true ∧ (vm.step ch s).machine.ip = k

theorem StandsAt.fetch {op : Operation} (h : vm.StandsAt p i b)
    (hop : p[i]? = some (.operation op)) : vm.fetch = some (.operation op) := by
  apply fetch_operation
  rw [h.program, h.ip]
  exact hop

theorem goesTo_iff {k : Nat} :
    vm.GoesTo ch s k ↔ (vm.next ch s).1 = .ok true ∧ (vm.next ch s).2.1.ip = k :=
  Iff.rfl

/-- A `loopForward` that is left out is continued behind the `loopBack` it is matched with. -/
theorem goesTo_behind_closing (h : vm.StandsAt p i 0) (hi : p[i]? = some .opening) :
    vm.GoesTo ch s (j + 1) ↔ p.Matched i j := by
  rw [goesTo_iff, next_skip h.onTape (h.fetch hi) h.cell, h.program, h.ip,
    ← Program.partnerRight_eq_some_iff hi]
  cases p.partnerRight i with
  | none => simp
  | some k => simp

/-- A `loopBack` that repeats its loop is continued behind the `loopForward` it is matched with. -/
theorem goesTo_behind_opening (h : vm.StandsAt p j b) (hb : b ≠ 0) (hj : p[j]? = some .closing) :
    vm.GoesTo ch s (i + 1) ↔ p.Matched i j := by
  rw [goesTo_iff, next_repeat h.onTape (h.fetch hj) h.cell hb, h.program, h.ip,
    ← Program.partnerLeft_eq_some_iff hj]
  cases p.partnerLeft j with
  | none => simp
  | some k => simp

/-- A `loopForward` cannot be left out exactly if it is matched with nothing. -/
theorem unmatchedOpen_iff (h : vm.StandsAt p i 0) (hi : p[i]? = some .opening) :
    (vm.step ch s).result = .error (.unmatchedOpen i) ↔ ∀ j, ¬ p.Matched i j := by
  show (vm.next ch s).1 = _ ↔ _
  rw [next_skip h.onTape (h.fetch hi) h.cell, h.program, h.ip,
    ← Program.partnerRight_eq_none_iff hi]
  cases p.partnerRight i with
  | none => simp
  | some k => simp

/-- A loop cannot be repeated exactly if its `loopBack` is matched with nothing. -/
theorem unmatchedClose_iff (h : vm.StandsAt p j b) (hb : b ≠ 0) (hj : p[j]? = some .closing) :
    (vm.step ch s).result = .error (.unmatchedClose j) ↔ ∀ i, ¬ p.Matched i j := by
  show (vm.next ch s).1 = _ ↔ _
  rw [next_repeat h.onTape (h.fetch hj) h.cell hb, h.program, h.ip,
    ← Program.partnerLeft_eq_none_iff hj]
  cases p.partnerLeft j with
  | none => simp
  | some k => simp

end Machine

namespace Program

open Machine

/-- A bracket is in one pair only. -/
theorem Matched.eq_of_common {p : Program} {i j i' j' : Nat} (h : p.Matched i j)
    (h' : p.Matched i' j') (hc : i = i' ∨ i = j' ∨ j = i' ∨ j = j') : i = i' ∧ j = j' := by
  rcases hc with rfl | hc | hc | rfl
  · exact ⟨rfl, h.right_unique h'⟩
  · exact absurd hc (h.opens_ne_closes h')
  · exact absurd hc.symm (h'.opens_ne_closes h)
  · exact ⟨h.left_unique h', rfl⟩

/-- **The two searches and the pass with a stack find one and the same matching**, in every program.
    Of a `loopForward` at `i` and a `loopBack` at `j > i`, the one is left out to `j + 1`, the other
    repeats to `i + 1`, what is between them is balanced, and the pass pairs them: all four or none.
    A jump fails exactly at a bracket in no pair, every bracket is in at most one, and two pairs
    never cross. -/
theorem searches_agree_with_stack (p : Program) :
    (∀ i j : Nat, i < j → p[i]? = some .opening → p[j]? = some .closing →
      ∀ {σ τ : Type} (ch : Channels σ) (ch' : Channels τ) (s : σ) (s' : τ) (vm vm' : Machine)
        (b : UInt8), vm.StandsAt p i 0 → vm'.StandsAt p j b → b ≠ 0 →
        [vm.GoesTo ch s (j + 1), vm'.GoesTo ch' s' (i + 1),
          isBalanced (p.stretch (i + 1) (j - (i + 1))) = true, (i, j) ∈ p.pairs].TFAE)
    ∧ (∀ i : Nat, p[i]? = some .opening →
      ∀ {σ : Type} (ch : Channels σ) (s : σ) (vm : Machine), vm.StandsAt p i 0 →
        ((vm.step ch s).result = .error (.unmatchedOpen i) ↔ ∀ j, (i, j) ∉ p.pairs))
    ∧ (∀ j : Nat, p[j]? = some .closing →
      ∀ {σ : Type} (ch : Channels σ) (s : σ) (vm : Machine) (b : UInt8), vm.StandsAt p j b → b ≠ 0 →
        ((vm.step ch s).result = .error (.unmatchedClose j) ↔ ∀ i, (i, j) ∉ p.pairs))
    ∧ (∀ i j : Nat, (i, j) ∈ p.pairs →
        i < j ∧ p[i]? = some .opening ∧ p[j]? = some .closing)
    ∧ (∀ i j i' j' : Nat, (i, j) ∈ p.pairs → (i', j') ∈ p.pairs →
        ((i = i' ∨ i = j' ∨ j = i' ∨ j = j') → i = i' ∧ j = j')
        ∧ ((i = i' ∧ j = j') ∨ j < i' ∨ j' < i ∨ (i < i' ∧ j' < j) ∨ (i' < i ∧ j < j'))) := by
  refine ⟨?_, ?_, ?_, ?_, ?_⟩
  · intro i j hij hi hj σ τ ch ch' s s' vm vm' b hvm hvm' hb
    tfae_have 1 ↔ 4 := (goesTo_behind_closing hvm hi).trans mem_pairs_iff.symm
    tfae_have 2 ↔ 4 := (goesTo_behind_opening hvm' hb hj).trans mem_pairs_iff.symm
    tfae_have 3 → 4 := fun hbal => mem_pairs_iff.mpr ⟨hij, hi, hj, hbal⟩
    tfae_have 4 → 3 := fun hm => (mem_pairs_iff.mp hm).balanced
    tfae_finish
  · intro i hi σ ch s vm hvm
    simp only [mem_pairs_iff]
    exact unmatchedOpen_iff hvm hi
  · intro j hj σ ch s vm b hvm hb
    simp only [mem_pairs_iff]
    exact unmatchedClose_iff hvm hb hj
  · intro i j hm
    have h := mem_pairs_iff.mp hm
    exact ⟨h.lt, h.opens, h.closes⟩
  · intro i j i' j' hm hm'
    have h := mem_pairs_iff.mp hm
    have h' := mem_pairs_iff.mp hm'
    exact ⟨h.eq_of_common h', h.nested_or_disjoint h'⟩

/-- In `[ ] ] [ [ ]` the third and the fourth bracket belong to nothing. -/
example : (ofOperations [.loopForward, .loopBack, .loopBack, .loopForward, .loopForward,
    .loopBack]).pairs = [(0, 1), (4, 5)] := by decide

end Program

end TapeMachine
