import TapeMachine.Proofs.Tape.Symmetry
import TapeMachine.StraightLine

/-!
# What a straight line does to a tape

The effect of strokes on a tape, in closed form. `Tape.Shifted` says of two tapes that the second
one has its pointer so many cells further on, around the ring, and every cell so much more, counted
modulo 256. Effects in a row add up (`Shifted.trans`), and so **a row of strokes shifts the tape by
its displacement and its gains** (`Stroke.shifted_applyAll`).
-/

namespace TapeMachine

variable {t u w : Tape} {d d' : Int} {g g' : Int → Int} {v : UInt8}

theorem ofInt_eq_iff {a b : Int} : UInt8.ofInt a = UInt8.ofInt b ↔ a ≡ b [ZMOD 256] := by
  rw [← UInt8.toNat_inj, Tape.toNat_ofInt, Tape.toNat_ofInt]
  show _ ↔ a % 256 = b % 256
  omega

namespace Tape

/-- A tape is what its size, its pointer and its cells are. -/
theorem ext_of_read (hsize : u.size = t.size) (hpointer : u.pointer = t.pointer)
    (hread : ∀ a, Within t.size a → u.read (some a) = t.read (some a)) : u = t := by
  have hcells : u.cells = t.cells := by
    refine Array.ext hsize ?_
    intro i hu ht
    have hat : Within t.size (i : Int) := ⟨Int.natCast_nonneg i, Int.ofNat_lt.mpr ht⟩
    have hau : Within u.size (i : Int) := by
      rw [hsize]
      exact hat
    have hcell := hread i hat
    rw [read_eq hat, read_eq hau] at hcell
    exact Except.ok.inj hcell
  cases t
  cases u
  simp_all

/-- The second tape is the first one with the pointer `d` cells further on, around the ring, and
    with `g r` more in the cell that is `r` cells to the right of where the pointer was. -/
structure Shifted (t : Tape) (d : Int) (g : Int → Int) (u : Tape) : Prop where
  size    : u.size = t.size
  pointer : u.pointer = (t.pointer + d) % t.size
  cells   : ∀ r : Int, u.read (some ((t.pointer + r) % t.size))
    = (t.read (some ((t.pointer + r) % t.size))).map (· + UInt8.ofInt (g r))

namespace Shifted

/-- A tape whose cells are as they were. -/
theorem of_read_eq (hsize : u.size = t.size) (hp : u.pointer = (t.pointer + d) % t.size)
    (hread : ∀ a, u.read (some a) = t.read (some a)) : Shifted t d (fun _ => 0) u where
  size    := hsize
  pointer := hp
  cells   := by
    intro r
    rw [hread]
    cases t.read (some ((t.pointer + r) % t.size)) with
    | error e => rfl
    | ok v => exact congrArg Except.ok (UInt8.add_zero v).symm

theorem refl (hon : t.OnTape) : Shifted t 0 (fun _ => 0) t := by
  refine of_read_eq rfl ?_ fun _ => rfl
  rw [Int.add_zero]
  exact (Within.emod_eq hon).symm

theorem onTape (h : Shifted t d g u) : u.OnTape := by
  show Within u.size u.pointer
  rw [h.size, h.pointer]
  exact within_emod t.size_pos _

/-- **What is done one after the other adds up.** Seen from the place where the first part leaves
    the pointer, a cell is `d` cells nearer. -/
theorem trans (h : Shifted t d g u) (h' : Shifted u d' g' w) :
    Shifted t (d + d') (fun r => g r + g' (r - d)) w where
  size    := h'.size.trans h.size
  pointer := by rw [h'.pointer, h.pointer, h.size, Int.emod_add_emod, add_assoc]
  cells   := by
    intro r
    have hcell : (u.pointer + (r - d)) % u.size = (t.pointer + r) % t.size := by
      rw [h.pointer, h.size, Int.emod_add_emod, add_assoc, add_sub_cancel]
    have hafter := h'.cells (r - d)
    rw [hcell] at hafter
    rw [hafter, h.cells]
    cases t.read (some ((t.pointer + r) % t.size)) with
    | error e => rfl
    | ok v =>
        refine congrArg Except.ok ?_
        show v + UInt8.ofInt (g r) + UInt8.ofInt (g' (r - d)) = v + UInt8.ofInt (g r + g' (r - d))
        rw [UInt8.ofInt_add, UInt8.add_assoc]

/-- Whole rounds of the pointer do not count. -/
theorem congr (h : Shifted t d g u) (hd : d % t.size = d' % t.size) (hg : ∀ r, g r = g' r) :
    Shifted t d' g' u where
  size    := h.size
  pointer := by rw [h.pointer, Int.add_emod, hd, ← Int.add_emod]
  cells   := by
    intro r
    rw [h.cells, hg]

/-- Seen from the pointer, a cell is as far to the right as its address is. -/
theorem read_eq (h : Shifted t d g u) {a : Int} (ha : Within t.size a) : u.read (some a)
    = (t.read (some a)).map (· + UInt8.ofInt (g (a - t.pointer))) := by
  have hcell := h.cells (a - t.pointer)
  rw [add_sub_cancel, ha.emod_eq] at hcell
  exact hcell

/-- There is one tape that is the first one shifted, and rounds and multiples of 256 do not count. -/
theorem unique (h : Shifted t d g u) (h' : Shifted t d' g' w)
    (hd : t.pointer + d ≡ t.pointer + d' [ZMOD t.size])
    (hg : ∀ a, Within t.size a → g (a - t.pointer) ≡ g' (a - t.pointer) [ZMOD 256]) : u = w := by
  refine ext_of_read (h.size.trans h'.size.symm) ?_ ?_
  · rw [h.pointer, h'.pointer]
    exact hd
  · intro a ha
    rw [h'.size] at ha
    rw [h.read_eq ha, h'.read_eq ha, ofInt_eq_iff.mpr (hg a ha)]

/-- With no displacement the pointer is where it was. -/
theorem pointer_eq (h : Shifted t 0 g u) (hon : t.OnTape) : u.pointer = t.pointer := by
  rw [h.pointer, Int.add_zero]
  exact Within.emod_eq hon

/-- With no displacement the current cell is the same one. -/
theorem current (h : Shifted t 0 g u) (hon : t.OnTape) (hc : t.current = .ok v) :
    u.current = .ok (v + UInt8.ofInt (g 0)) := by
  have hcell := h.cells 0
  rw [Int.add_zero, Within.emod_eq hon, ← current_eq_read, hc] at hcell
  rw [current_eq_read, h.pointer_eq hon, hcell]
  rfl

end Shifted

/-- A cell that is counted on is the only one to have more. -/
theorem OnTape.shifted_set (hon : t.OnTape) (c : Int) :
    Shifted t 0 (fun r => if r % t.size = 0 then c else 0)
      (t.set hon.index (t.get hon.index + UInt8.ofInt c)) where
  size    := size_set ..
  pointer := by
    rw [pointer_set, Int.add_zero]
    exact (Within.emod_eq hon).symm
  cells   := by
    intro r
    have hcell : (t.pointer + r) % t.size = t.pointer ↔ r % t.size = 0 := by
      conv_lhs => rw [← Within.emod_eq hon, Int.emod_add_emod]
      rw [Int.emod_eq_emod_iff_emod_sub_eq_zero, add_sub_cancel_left]
    have ha : Within t.size ((t.pointer + r) % t.size) := within_emod t.size_pos _
    rw [hon.read_set _ ha]
    by_cases hr : r % t.size = 0
    · rw [if_pos (hcell.mpr hr), if_pos hr, hcell.mpr hr, ← current_eq_read, hon.current_eq]
      rfl
    · rw [if_neg (mt hcell.mp hr), if_neg hr]
      cases t.read (some ((t.pointer + r) % t.size)) with
      | error e => rfl
      | ok v => exact congrArg Except.ok (UInt8.add_zero v).symm

theorem OnTape.shifted_moveNext (hon : t.OnTape) : Shifted t 1 (fun _ => 0) t.moveNext := by
  rw [hon.moveNext_eq]
  exact .of_read_eq rfl rfl (read_setPointer t _)

theorem OnTape.shifted_movePrevious (hon : t.OnTape) :
    Shifted t (-1) (fun _ => 0) t.movePrevious := by
  rw [hon.movePrevious_eq]
  exact .of_read_eq rfl rfl (read_setPointer t _)

end Tape

namespace Stroke

open Tape

variable {x : Stroke} {xs : List Stroke}

theorem perform_toElementary {σ : Type} (ch : Channels σ) (ip : Nat) (x : Stroke) (t : Tape)
    (s : σ) : x.toElementary.perform ch ip t s = ((x.apply t).mapError .address, s) := by
  cases x <;> rfl

/-- A stroke shifts the tape: it counts where the pointer is, or moves the pointer. -/
theorem shifted_apply (hon : t.OnTape) (x : Stroke) : ∃ u, x.apply t = .ok u
    ∧ Shifted t x.shift (fun r => if r % t.size = 0 then x.count else 0) u := by
  cases x with
  | increment =>
      refine ⟨_, ?_, hon.shifted_set 1⟩
      rw [apply, Tape.increment, hon.here_eq]
      rfl
  | decrement =>
      refine ⟨_, ?_, hon.shifted_set (-1)⟩
      rw [apply, Tape.decrement, hon.here_eq, UInt8.ofInt_neg, UInt8.ofInt_one,
        ← UInt8.sub_eq_add_neg]
  | next => exact ⟨_, rfl, hon.shifted_moveNext.congr rfl fun _ => (ite_self 0).symm⟩
  | previous => exact ⟨_, rfl, hon.shifted_movePrevious.congr rfl fun _ => (ite_self 0).symm⟩

/-- **A row of strokes shifts the tape by its displacement and its gains.** -/
theorem shifted_applyAll (hon : t.OnTape) (xs : List Stroke) : ∃ u, applyAll xs t = .ok u
    ∧ Shifted t (displacement xs) (fun r => gain t.size r xs) u := by
  induction xs generalizing t with
  | nil => exact ⟨t, rfl, .refl hon⟩
  | cons x xs ih =>
      obtain ⟨u, hu, hfirst⟩ := shifted_apply hon x
      obtain ⟨w, hw, hrest⟩ := ih hfirst.onTape
      refine ⟨w, ?_, ?_⟩
      · rw [applyAll, hu]
        exact hw
      · rw [hfirst.size] at hrest
        exact hfirst.trans hrest

end Stroke

end TapeMachine
