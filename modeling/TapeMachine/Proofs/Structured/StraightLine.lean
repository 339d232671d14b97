import TapeMachine.Proofs.Structured.CountingLoop

/-!
# Straight lines in closed form

A row of strokes goes back and forth over the ring, and over its ends, and may come to the same cell
any number of times. What it does in the end is told by counting alone. The pointer goes as far as
the moves to the right outnumber those to the left, and a cell has as much more as the counts up
outnumber those down **among the strokes that find the pointer there**. `ClosedForm` says so of two
tapes, and `straight_lines_count` of every row, called stroke by stroke or executed as a program.

Hence rows that count the same are the same (`applyAll_congr`), whatever the order in which they do
so. The recursion of `gain`, which follows the pointer from stroke to stroke, is tied to the counting
by `gain_eq_net`.
-/

namespace TapeMachine

namespace Stroke

open Tape

variable {t u : Tape} {x y : Stroke} {xs ys : List Stroke} {n k : Nat} {m a : Int}

-- ── Counting ─────────────────────────────────────────────────────────────────────

theorem displacement_eq (xs : List Stroke) :
    displacement xs = (xs.count next : Int) - xs.count previous := by
  induction xs with
  | nil => rfl
  | cons x xs ih =>
      rw [displacement, ih]
      cases x <;> simp [shift] <;> omega

theorem pointerAfter_eq (n : Nat) (m : Int) (xs : List Stroke) :
    pointerAfter n m xs = (m + displacement xs) % n := by
  rw [pointerAfter, displacement_eq, Int.add_sub_assoc]

/-- Behind the first stroke the pointer begins where that has moved it. -/
theorem pointerAfter_cons (n : Nat) (m : Int) (x : Stroke) (xs : List Stroke) :
    pointerAfter n m (x :: xs) = pointerAfter n (m + x.shift) xs := by
  rw [pointerAfter_eq, pointerAfter_eq, displacement, Int.add_assoc]

theorem timesAt_cons (x y : Stroke) (n : Nat) (m a : Int) (xs : List Stroke) :
    x.timesAt n m a (y :: xs)
      = (if y = x ∧ m % n = a then 1 else 0) + x.timesAt n (m + y.shift) a xs := by
  have hfirst : pointerAfter n m [] = m % n := by
    rw [pointerAfter_eq, displacement, Int.add_zero]
  rw [timesAt, timesAt, List.length_cons, List.range_succ_eq_map, List.countP_cons,
    List.countP_map, Nat.add_comm]
  congr 1
  · simp [hfirst]
  · refine List.countP_congr ?_
    intro i _
    simp [pointerAfter_cons]

/-- What a row adds to a cell is what its first stroke does, if it finds the pointer there, and what
    the others do. -/
theorem net_cons (n : Nat) (m a : Int) (x : Stroke) (xs : List Stroke) :
    net n m a (x :: xs) = (if m % n = a then x.count else 0) + net n (m + x.shift) a xs := by
  rw [net, net, timesAt_cons, timesAt_cons]
  by_cases h : m % n = a
  · cases x <;> simp [count, h] <;> omega
  · simp [h]

/-- Following the pointer comes to the same as counting. -/
theorem gain_eq_net (ha : Within n a) (m : Int) (xs : List Stroke) :
    gain n (a - m) xs = net n m a xs := by
  induction xs generalizing m with
  | nil => rfl
  | cons x xs ih =>
      have hcell : (a - m) % n = 0 ↔ m % n = a := by
        rw [← Int.emod_eq_emod_iff_emod_sub_eq_zero, ha.emod_eq, eq_comm]
      rw [gain, net_cons, Int.sub_sub, ih]
      simp only [hcell]

/-- A cell that the pointer never comes to keeps what it has. -/
theorem net_of_not_visits (h : ¬ Visits n m a xs) : net n m a xs = 0 := by
  have hnever (x : Stroke) : x.timesAt n m a xs = 0 := by
    rw [timesAt, List.countP_eq_zero]
    intro i hi hat
    have hlt : i < xs.length := List.mem_range.mp hi
    exact h ⟨i, Nat.le_of_lt hlt, (of_decide_eq_true hat).2⟩
  rw [net, hnever, hnever]
  rfl

-- ── Rows that count the same ─────────────────────────────────────────────────────

/-- The second tape is what the row makes of the first one: its pointer is moved by the moves, and
    every cell is changed by the counts that are made there. -/
structure ClosedForm (t : Tape) (xs : List Stroke) (u : Tape) : Prop where
  size    : u.size = t.size
  pointer : u.pointer = pointerAfter t.size t.pointer xs
  cells   : ∀ a : Int, 0 ≤ a → a < t.size → ∃ v c, t.read (some a) = .ok v
    ∧ u.read (some a) = .ok c ∧ (c.toNat : Int) = (v.toNat + net t.size t.pointer a xs) % 256

/-- **A row of strokes counts.** -/
theorem closedForm_applyAll (hon : t.OnTape) (xs : List Stroke) :
    ∃ u, applyAll xs t = .ok u ∧ ClosedForm t xs u := by
  obtain ⟨u, hu, hshifted⟩ := shifted_applyAll hon xs
  refine ⟨u, hu, hshifted.size, ?_, ?_⟩
  · rw [pointerAfter_eq]
    exact hshifted.pointer
  · intro a h0 h1
    have ha : Within t.size a := ⟨h0, h1⟩
    obtain ⟨v, hv⟩ : ∃ v, t.read (some a) = .ok v := ⟨_, read_eq ha⟩
    refine ⟨v, v + UInt8.ofInt (net t.size t.pointer a xs), hv, ?_, ?_⟩
    · rw [hshifted.read_eq ha, hv, gain_eq_net ha]
      rfl
    · conv_lhs => rw [← ofInt_toNat v, ← UInt8.ofInt_add, toNat_ofInt]
      omega

/-- **Rows that count the same do the same**: it is enough that they leave the pointer at the same
    cell, and what they add to the cells may differ by multiples of 256. -/
theorem applyAll_congr (hon : t.OnTape)
    (hpointer : pointerAfter t.size t.pointer xs = pointerAfter t.size t.pointer ys)
    (hnet : ∀ a, Within t.size a →
      net t.size t.pointer a xs ≡ net t.size t.pointer a ys [ZMOD 256]) :
    applyAll xs t = applyAll ys t := by
  obtain ⟨u, hu, hxs⟩ := shifted_applyAll hon xs
  obtain ⟨w, hw, hys⟩ := shifted_applyAll hon ys
  have heq : u = w := by
    refine hxs.unique hys ?_ ?_
    · rw [pointerAfter_eq, pointerAfter_eq] at hpointer
      exact hpointer
    · intro a ha
      rw [gain_eq_net ha, gain_eq_net ha]
      exact hnet a ha
  rw [hu, hw, heq]

-- ── One stroke many times ────────────────────────────────────────────────────────

theorem displacement_replicate (k : Nat) (x : Stroke) :
    displacement (List.replicate k x) = k * x.shift := by
  induction k with
  | zero => rw [Nat.cast_zero, zero_mul]; rfl
  | succ k ih => rw [List.replicate_succ, displacement, ih, Nat.cast_succ, add_mul, one_mul, add_comm]

/-- A stroke that moves the pointer counts nowhere, and one that does not counts where it begins. -/
theorem net_replicate (n : Nat) (m a : Int) (k : Nat) (x : Stroke) :
    net n m a (List.replicate k x) = k * (if m % n = a then x.count else 0) := by
  induction k generalizing m with
  | zero => rw [Nat.cast_zero, zero_mul]; rfl
  | succ k ih =>
      rw [List.replicate_succ, net_cons, ih, Nat.cast_succ, add_mul, one_mul, add_comm]
      cases x with
      | increment => simp [shift]
      | decrement => simp [shift]
      | next => simp [count]
      | previous => simp [count]

/-- Rounds of `q` do not count modulo `q`, nor does what is nothing anyway. -/
theorem mul_modEq_mod_mul {p q : Nat} {c : Int} (k : Nat) (h : p = q ∨ c = 0) :
    (k : Int) * c ≡ (k % p : Nat) * c [ZMOD q] := by
  rcases h with rfl | rfl
  · rw [Int.natCast_mod]
    exact (Int.mod_modEq _ _).symm.mul_right c
  · rw [mul_zero, mul_zero]

/-- **A stroke made over and over comes round to where it began.** -/
theorem applyAll_replicate_mod (hon : t.OnTape) (x : Stroke) (k : Nat) :
    applyAll (List.replicate k x) t
      = applyAll (List.replicate (k % x.period t.size) x) t := by
  refine applyAll_congr hon ?_ ?_
  · have hmoves : x.period t.size = t.size ∨ x.shift = 0 := by
      cases x with
      | increment => exact Or.inr rfl
      | decrement => exact Or.inr rfl
      | next => exact Or.inl rfl
      | previous => exact Or.inl rfl
    rw [pointerAfter_eq, pointerAfter_eq, displacement_replicate, displacement_replicate]
    exact (mul_modEq_mod_mul k hmoves).add_left _
  · intro a _
    have hcounts : x.period t.size = 256
        ∨ (if t.pointer % t.size = a then x.count else 0) = 0 := by
      cases x with
      | increment => exact Or.inl rfl
      | decrement => exact Or.inl rfl
      | next => exact Or.inr (ite_self 0)
      | previous => exact Or.inr (ite_self 0)
    rw [net_replicate, net_replicate]
    exact mul_modEq_mod_mul k hcounts

end Stroke

-- ── Strokes and programs ─────────────────────────────────────────────────────────

namespace Machine

open Stroke

/-- A program of strokes makes them one after the other, and ends. -/
theorem after_straight_line {σ : Type} (ch : Channels σ) (vm : Machine) (s : σ)
    (xs : List Stroke) (hon : vm.tape.OnTape) :
    let p := vm.load (.ofOperations (xs.map toOperation))
    ∃ u, applyAll xs vm.tape = .ok u ∧ p.after ch xs.length s = some (p.moved xs.length u, s)
      ∧ (p.moved xs.length u).next ch s = (.ok false, p.moved xs.length u, s) := by
  intro p
  have hb : p.program.Holds 0 (row xs) := by
    show Program.Holds (.ofOperations (xs.map toOperation)) 0 (row xs)
    rw [← flatten_row]
    exact Program.holds_ofOperations _
  obtain ⟨u, hu, ha⟩ := after_strokes ch s hb hon (Nat.le_refl xs.length)
  rw [List.take_length] at hu
  rw [Nat.zero_add] at ha
  refine ⟨u, hu, ha, ?_⟩
  have hend : (p.moved xs.length u).fetch = none := by
    refine fetch_of_size_le ?_
    show (Program.ofOperations (xs.map toOperation)).size ≤ xs.length
    simp [Program.ofOperations]
  exact next_of_fetch_eq_none hend

end Machine

namespace Stroke

open Tape

/-- What rows of strokes do that begin with the tape `t`. -/
structure ActsByCounting (t : Tape) : Prop where
  /-- The strokes of a row, made one after the other, have the effect that counting tells. -/
  calls   : ∀ xs, ∃ u, applyAll xs t = .ok u ∧ ClosedForm t xs u
  /-- So has a row that is executed as a program, which ends behind its last stroke. -/
  program : ∀ {σ : Type} (ch : Channels σ) (vm : Machine) (s : σ) (xs : List Stroke), vm.tape = t →
    let p := vm.load (.ofOperations (xs.map toOperation))
    ∃ u, applyAll xs t = .ok u ∧ p.after ch xs.length s = some (p.moved xs.length u, s)
      ∧ (p.moved xs.length u).next ch s = (.ok false, p.moved xs.length u, s)
  /-- Two rows that leave the pointer at the same cell, and change each cell that either of them
      visits by as much, modulo 256, have the same effect. -/
  same    : ∀ xs ys, pointerAfter t.size t.pointer xs = pointerAfter t.size t.pointer ys →
    (∀ a, Visits t.size t.pointer a xs ∨ Visits t.size t.pointer a ys →
      net t.size t.pointer a xs ≡ net t.size t.pointer a ys [ZMOD 256]) →
    applyAll xs t = applyAll ys t
  /-- Only the remainder of how often a stroke is made in a row matters: modulo 256 for one that
      counts, modulo the number of cells for one that moves. -/
  periods : ∀ x k, applyAll (List.replicate k x) t
    = applyAll (List.replicate (k % x.period t.size) x) t

/-- **Straight lines act by counting**, however often they go around the ring. -/
theorem straight_lines_count (t : Tape) (hon : t.OnTape) : ActsByCounting t := by
  constructor
  · exact closedForm_applyAll hon
  · rintro σ ch vm s xs rfl
    exact Machine.after_straight_line ch vm s xs hon
  · intro xs ys hpointer hvisited
    refine applyAll_congr hon hpointer ?_
    intro a _
    by_cases ha : Visits t.size t.pointer a xs ∨ Visits t.size t.pointer a ys
    · exact hvisited a ha
    · rw [net_of_not_visits (mt Or.inl ha), net_of_not_visits (mt Or.inr ha)]
  · exact applyAll_replicate_mod hon

/-- Two cells, where a move to the right comes to the same cell as one to the left. -/
theorem straight_lines_on_two_cells :
    let t : Tape := { cells := #[255, 0], pointer := 1, size_pos := by decide }
    t.OnTape ∧ ActsByCounting t := by
  intro t
  have hon : t.OnTape := ⟨by decide, by decide⟩
  exact ⟨hon, straight_lines_count t hon⟩

end Stroke

end TapeMachine
