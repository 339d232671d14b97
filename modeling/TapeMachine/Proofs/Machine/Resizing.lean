import TapeMachine.Proofs.Machine.Duality
import TapeMachine.Proofs.Machine.Unseen

/-!
# Tapes of another size

How many cells a tape has shows only at its ends, where the pointer goes around to the other one.
While it does not (`Machine.wraps`), a machine takes **the same course on a longer tape**, and the
cells that this one has more stay zero.
-/

namespace TapeMachine

namespace Tape

variable {t u : Tape} {n m : Nat} {p : Int}

/-- The second tape, of `m` cells, is the first one, of `n`, with zero cells behind it. -/
structure Extended (n m : Nat) (t u : Tape) : Prop where
  le      : n ≤ m
  onTape  : t.OnTape
  size    : t.size = n
  size'   : u.size = m
  pointer : u.pointer = t.pointer
  cells   : ∀ a, Within n a → u.read (some a) = t.read (some a)
  blank   : ∀ a : Int, n ≤ a → a < m → u.read (some a) = .ok 0

/-- Before the last cell a move to the right is to the next address. -/
theorem moveNext_of_ne (h : t.pointer + 1 ≠ t.size) :
    t.moveNext = t.setPointer (t.pointer + 1) := by
  have h' : t.pointer + 1 ≠ t.cells.size := h
  rw [moveNext, if_neg h']
  rfl

/-- Behind the first cell a move to the left is to the address before. -/
theorem movePrevious_of_ne (h : t.pointer ≠ 0) :
    t.movePrevious = t.setPointer (t.pointer - 1) := by
  rw [movePrevious, if_neg h]
  rfl

namespace Extended

/-- The pointer stands among the cells that both tapes have. -/
theorem within_left (h : Extended n m t u) : Within n t.pointer := by
  rw [← h.size]
  exact h.onTape

/-- An address of the shorter tape is one of the longer. -/
theorem within_right (h : Extended n m t u) {a : Int} (ha : Within n a) : Within m a := by
  obtain ⟨h0, h1⟩ := ha
  have hle := h.le
  exact ⟨h0, by omega⟩

/-- The pointer is on the longer tape too. -/
theorem onTape_right (h : Extended n m t u) : u.OnTape := by
  show Within u.size u.pointer
  rw [h.pointer, h.size']
  exact h.within_right h.within_left

/-- Both tapes have the same current cell. -/
theorem current (h : Extended n m t u) : u.current = t.current := by
  rw [current_eq_read, current_eq_read, h.pointer]
  exact h.cells t.pointer h.within_left

/-- A cell that both have may be changed on both. -/
theorem set (h : Extended n m t u) (v : UInt8) :
    Extended n m (t.set h.onTape.index v) (u.set h.onTape_right.index v) where
  le      := h.le
  onTape  := h.onTape.set _ v
  size    := (size_set ..).trans h.size
  size'   := (size_set ..).trans h.size'
  pointer := h.pointer
  cells   := by
    intro a ha
    have ht : Within t.size a := by
      rw [h.size]
      exact ha
    have hu : Within u.size a := by
      rw [h.size']
      exact h.within_right ha
    rw [h.onTape.read_set v ht, h.onTape_right.read_set v hu, h.pointer, h.cells a ha]
  blank   := by
    intro a ha ha'
    obtain ⟨h0, h1⟩ := h.within_left
    have hu : Within u.size a := by
      rw [h.size']
      exact ⟨by omega, ha'⟩
    have hne : a ≠ u.pointer := by
      rw [h.pointer]
      omega
    rw [h.onTape_right.read_set v hu, if_neg hne]
    exact h.blank a ha ha'

/-- Both pointers may go to one place of the shorter tape. -/
theorem setPointer (h : Extended n m t u) (hp : Within n p) :
    Extended n m (t.setPointer p) (u.setPointer p) where
  le      := h.le
  onTape  := by
    show Within t.size p
    rw [h.size]
    exact hp
  size    := h.size
  size'   := h.size'
  pointer := rfl
  cells   := by
    intro a ha
    rw [read_setPointer, read_setPointer]
    exact h.cells a ha
  blank   := by
    intro a ha ha'
    rw [read_setPointer]
    exact h.blank a ha ha'

/-- Short of its last cell the pointer does not notice how long the tape is. -/
theorem moveNext (h : Extended n m t u) (hend : t.pointer + 1 ≠ t.size) :
    Extended n m t.moveNext u.moveNext := by
  obtain ⟨h0, h1⟩ := h.within_left
  have hle := h.le
  have hend' : u.pointer + 1 ≠ u.size := by
    rw [h.pointer, h.size']
    rw [h.size] at hend
    omega
  rw [moveNext_of_ne hend, moveNext_of_ne hend', h.pointer]
  rw [h.size] at hend
  exact h.setPointer ⟨by omega, by omega⟩

/-- A move to the left goes alike, unless it comes back at the other end. -/
theorem movePrevious (h : Extended n m t u) (hfirst : t.pointer ≠ 0) :
    Extended n m t.movePrevious u.movePrevious := by
  obtain ⟨h0, h1⟩ := h.within_left
  have hfirst' : u.pointer ≠ 0 := by
    rw [h.pointer]
    exact hfirst
  rw [movePrevious_of_ne hfirst, movePrevious_of_ne hfirst', h.pointer]
  exact h.setPointer ⟨by omega, by omega⟩

end Extended

/-- A zero tape is the beginning of every longer one. -/
theorem extended_reset (ht : t.size = n) (hu : u.size = m) (hle : n ≤ m) :
    Extended n m t.reset u.reset where
  le      := hle
  onTape  := onTape_reset
  size    := size_reset.trans ht
  size'   := size_reset.trans hu
  pointer := rfl
  cells   := by
    subst ht hu
    rintro a ⟨h0, h1⟩
    rw [read_reset ⟨h0, h1⟩, read_reset ⟨h0, by omega⟩]
  blank   := by
    subst hu
    intro a ha ha'
    exact read_reset ⟨by omega, ha'⟩

end Tape

namespace Machine

variable {σ : Type} {n m : Nat}

/-- Whether the next operation takes the pointer around from one end of the tape to the other. -/
def wraps (vm : Machine) : Bool :=
  match vm.fetch with
  | some (.operation .next)     => vm.tape.pointer + 1 = vm.tape.size
  | some (.operation .previous) => vm.tape.pointer = 0
  | _                           => false

/-- Until the pointer goes around, a machine does not see how long its tape is. -/
theorem unseen_behind : Unseen (fun vm => vm.wraps = false) (Tape.Extended n m) where
  onTape   := fun h => ⟨h.onTape, h.onTape_right⟩
  current  := fun h _ => h.current
  set      := fun h _ _ _ v => h.set v
  next     := by
    intro vm u h hwraps hf
    rw [wraps, hf] at hwraps
    exact h.moveNext (of_decide_eq_false hwraps)
  previous := by
    intro vm u h hwraps hf
    rw [wraps, hf] at hwraps
    exact h.movePrevious (of_decide_eq_false hwraps)

/-- Two machines at the same place, one on a tape of `n` cells and one on a tape of `m` cells that
    begins as the other one and goes on with zeros, with the same streams. -/
structure Resized (n m : Nat) (c c' : Machine × σ) : Prop where
  ip      : c'.1.ip = c.1.ip
  size    : c.1.tape.size = n
  size'   : c'.1.tape.size = m
  pointer : c'.1.tape.pointer = c.1.tape.pointer
  current : c'.1.tape.current = c.1.tape.current
  cells   : ∀ a : Int, 0 ≤ a → a < n → c'.1.tape.read (some a) = c.1.tape.read (some a)
  blank   : ∀ a : Int, n ≤ a → a < m → c'.1.tape.read (some a) = .ok 0
  streams : c'.2 = c.2

/-- Machines on such tapes are at the same place of the same program, with the same cells as far as
    both have them. -/
theorem OnAnother.resized {c c' : Machine × σ} (h : OnAnother (Tape.Extended n m) c c') :
    Resized n m c c' := by
  obtain ⟨u, hu, rfl⟩ := h
  exact ⟨rfl, hu.size, hu.size', hu.pointer, hu.current, fun a h0 h1 => hu.cells a ⟨h0, h1⟩,
    hu.blank, rfl⟩

/-- **The size of the tape is not observable** to a program whose pointer does not go around: on
    every longer tape it takes the same course, and leaves the cells behind alone. -/
theorem size_is_unobservable {σ : Type} (hn : 0 < n) (hnm : n ≤ m) (tracing : Bool) (p : Program)
    (ch : Channels σ) (s : σ)
    (hwraps : ∀ i c, ((fresh n hn tracing).load p).reset.after ch.recorded i (s, #[]) = some c →
      c.1.wraps = false) :
    SameCourse (Resized n m) ch.recorded ch.recorded ((fresh n hn tracing).load p)
      ((fresh m (Nat.lt_of_lt_of_le hn hnm) tracing).load p) (s, #[]) (s, #[]) := by
  have hextended : Tape.Extended n m ((fresh n hn tracing).load p).reset.tape
      ((fresh m (Nat.lt_of_lt_of_le hn hnm) tracing).load p).reset.tape :=
    Tape.extended_reset (Tape.size_blank n hn)
      (Tape.size_blank m (Nat.lt_of_lt_of_le hn hnm)) hnm
  exact (unseen_behind.lockstep ch.recorded).sameCourse (flushAlike_onAnother _ _)
    ⟨_, hextended, rfl⟩ hwraps OnAnother.resized

/-- A program that goes to its second cell and back in a loop, on a tape of two cells and on one of
    five. -/
theorem size_of_two_cells_or_five :
    let p : Program := .ofOperations
      [.increment, .loopForward, .next, .output, .previous, .decrement, .loopBack]
    (0 < 2 ∧ 2 ≤ 5 ∧ ∀ i c, ((fresh 2 Nat.two_pos true).load p).reset.after
        Channels.prepared.recorded i ({}, #[]) = some c → c.1.wraps = false)
    ∧ SameCourse (Resized 2 5) Channels.prepared.recorded Channels.prepared.recorded
        ((fresh 2 Nat.two_pos true).load p) ((fresh 5 (by decide) true).load p)
        ({}, #[]) ({}, #[]) := by
  intro p
  have hrun : ∀ i < 8, (((fresh 2 Nat.two_pos true).load p).reset.after Channels.prepared.recorded i
      ({}, #[])).all (fun c => !c.1.wraps) = true := by decide +kernel
  have hend : (((fresh 2 Nat.two_pos true).load p).reset.after Channels.prepared.recorded 8
      ({}, #[])).isNone = true := by decide +kernel
  have hwraps : ∀ i c, ((fresh 2 Nat.two_pos true).load p).reset.after Channels.prepared.recorded i
      ({}, #[]) = some c → c.1.wraps = false := by
    intro i c hc
    rcases Nat.lt_or_ge i 8 with hi | hi
    · have hall := hrun i hi
      rw [hc] at hall
      simpa using hall
    · obtain ⟨k, rfl⟩ := Nat.exists_eq_add_of_le hi
      rw [after_add, Option.isNone_iff_eq_none.mp hend] at hc
      exact nomatch hc
  exact ⟨⟨Nat.two_pos, by decide, hwraps⟩,
    size_is_unobservable Nat.two_pos (by decide) true p .prepared {} hwraps⟩

end Machine

end TapeMachine
