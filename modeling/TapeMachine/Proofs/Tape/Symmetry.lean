import Mathlib.Data.Int.ModEq
import TapeMachine.Proofs.Tape.OnTape

/-!
# Symmetries of the tape

The tape is a ring, and a cell is a number modulo 256. So no cell is special, neither direction is,
and no sign is, although the two ends are where the pointer moves are written out as exceptions. A
`Symmetry` turns the ring, may mirror it and may negate every cell; `Symmetry.Relates` says that
one tape is what it makes of another. **Whatever is done to one tape can be done to the other:**
reading (`Relates.current`), writing (`Relates.set`), and going to either side (`Relates.moveNext`,
`Relates.movePrevious`).

A tape turned by `k` cells, a reflected one and a negated one are `Tape.RotatedBy`,
`Tape.Reflected` and `Tape.Negated`.
-/

namespace TapeMachine

namespace Tape

variable {t u : Tape} {a b : Int}

-- ── Places on a ring ─────────────────────────────────────────────────────────────

/-- The place is that of a cell. -/
def Within (n : Nat) (a : Int) : Prop :=
  0 ≤ a ∧ a < n

/-- A number cut to the tape is on it. -/
theorem within_emod {n : Nat} (hn : 0 < n) (a : Int) : Within n (a % n) := by
  have hn' : (n : Int) ≠ 0 := by omega
  exact ⟨Int.emod_nonneg a hn', Int.emod_lt_of_pos a (by omega)⟩

/-- An address on the tape is not changed by cutting it. -/
theorem Within.emod_eq {n : Nat} (h : Within n a) : a % n = a :=
  Int.emod_eq_of_lt h.1 h.2

/-- Two cells whose places differ by some rounds are one. -/
theorem Within.eq_of_modEq {n : Nat} (ha : Within n a) (hb : Within n b) (h : a ≡ b [ZMOD n]) :
    a = b := by
  rw [← ha.emod_eq, ← hb.emod_eq]
  exact h

/-- To the right the pointer goes one place on, around the ring. -/
theorem OnTape.moveNext_eq (h : t.OnTape) :
    t.moveNext = t.setPointer ((t.pointer + 1) % t.size) := by
  obtain ⟨h0, h1⟩ := h
  rw [Tape.moveNext, setPointer]
  congr 1
  show (if t.pointer + 1 = t.size then 0 else t.pointer + 1) = _
  split
  · next hend => rw [hend, Int.emod_self]
  · next hend => rw [Int.emod_eq_of_lt (by omega) (by omega)]

/-- To the left the pointer goes one place back, around the ring. -/
theorem OnTape.movePrevious_eq (h : t.OnTape) :
    t.movePrevious = t.setPointer ((t.pointer - 1) % t.size) := by
  obtain ⟨h0, h1⟩ := h
  rw [Tape.movePrevious, setPointer]
  congr 1
  show (if t.pointer = 0 then (t.size : Int) - 1 else t.pointer - 1) = _
  split
  · next hfirst =>
      rw [hfirst, ← Int.add_emod_right, Int.emod_eq_of_lt (by omega) (by omega)]
      omega
  · next hfirst => rw [Int.emod_eq_of_lt (by omega) (by omega)]

-- ── Reading and writing ──────────────────────────────────────────────────────────

theorem current_eq_read (t : Tape) : t.current = t.read (some t.pointer) := rfl

theorem read_some (t : Tape) (a : Int) : t.read (some a) = (t.locate a).map t.get := by
  rw [read, Option.getD_some]
  cases t.locate a with
  | ok i => rfl
  | error e => rfl

theorem Within.toNat_lt (h : Within t.size a) : a.toNat < t.cells.size := by
  obtain ⟨h0, h1⟩ := h
  unfold size at h1
  omega

/-- An address on the tape can be read. -/
theorem read_eq (h : Within t.size a) :
    t.read (some a) = .ok (t.get ⟨a.toNat, h.toNat_lt⟩) := by
  rw [read_some, locate_eq h.1 h.2]
  rfl

/-- Where the pointer stands makes no difference to the cells. -/
@[simp] theorem read_setPointer (t : Tape) (p a : Int) :
    (t.setPointer p).read (some a) = t.read (some a) := by
  rw [read_some, read_some]
  rfl

/-- A cell that is written to is the only one to change. -/
theorem OnTape.read_set (h : t.OnTape) (v : UInt8) (ha : Within t.size a) :
    (t.set h.index v).read (some a) = if a = t.pointer then .ok v else t.read (some a) := by
  have ha' : Within (t.set h.index v).size a := by
    rw [size_set]
    exact ha
  rw [read_eq ha', read_eq ha]
  by_cases hp : a = t.pointer
  · subst hp
    rw [if_pos rfl]
    exact congrArg Except.ok (Array.getElem_set_self h.index.isLt)
  · rw [if_neg hp]
    refine congrArg Except.ok (Array.getElem_set_ne h.index.isLt _ ?_)
    show t.pointer.toNat ≠ a.toNat
    obtain ⟨h0, -⟩ := h
    obtain ⟨ha0, -⟩ := ha
    omega

/-- After a reset every cell is zero. -/
theorem read_reset (h : Within t.size a) : t.reset.read (some a) = .ok 0 := by
  have h' : Within t.reset.size a := by
    rw [size_reset]
    exact h
  rw [read_eq h']
  exact congrArg Except.ok (Array.getElem_replicate _)

end Tape

-- ── Symmetries ───────────────────────────────────────────────────────────────────

/-- A way to see the same tape differently. -/
structure Symmetry where
  /-- By how many cells the ring is turned. -/
  shift    : Nat := 0
  /-- Whether the cells follow one another in the other direction. -/
  mirrored : Bool := false
  /-- Whether every cell has the other sign. -/
  negated  : Bool := false

namespace Symmetry

variable {S : Symmetry} {n : Nat} {a b d : Int} {t u : Tape}

/-- The direction in which the pointer goes where it went to the right. -/
def turn (S : Symmetry) : Int :=
  if S.mirrored then -1 else 1

/-- The place where a cell of a ring of `n` cells is found. -/
def place (S : Symmetry) (n : Nat) (a : Int) : Int :=
  (S.turn * a + S.shift) % n

/-- The value that a cell is found with. -/
def value (S : Symmetry) (b : UInt8) : UInt8 :=
  if S.negated then -b else b

theorem turn_eq (S : Symmetry) : S.turn = 1 ∨ S.turn = -1 := by
  rw [turn]
  cases S.mirrored with
  | false => exact Or.inl rfl
  | true => exact Or.inr rfl

/-- A symmetry sends every address to one on the tape. -/
theorem within_place (hn : 0 < n) (a : Int) : Tape.Within n (S.place n a) :=
  Tape.within_emod hn _

/-- A cell that is `d` cells further on is found `d` cells further in the direction of the turn. -/
theorem place_add (S : Symmetry) (n : Nat) (a d : Int) :
    S.place n (a + d) = (S.place n a + S.turn * d) % n := by
  rw [place, place, Int.emod_add_emod, mul_add, add_right_comm]

/-- Rounds do not count. -/
theorem place_emod (S : Symmetry) (n : Nat) (a : Int) : S.place n (a % n) = S.place n a :=
  ((Int.mod_modEq a n).mul_left S.turn).add_right S.shift

/-- No two cells are found at one place. -/
theorem place_inj (ha : Tape.Within n a) (hb : Tape.Within n b) (h : S.place n a = S.place n b) :
    a = b := by
  have hmod : S.turn * a ≡ S.turn * b [ZMOD n] := Int.ModEq.add_right_cancel' S.shift h
  refine ha.eq_of_modEq hb ?_
  rcases S.turn_eq with hturn | hturn
  · rw [hturn, one_mul, one_mul] at hmod
    exact hmod
  · rw [hturn, neg_one_mul, neg_one_mul] at hmod
    exact Int.neg_modEq_neg.mp hmod

/-- A cell is zero exactly if its image is. -/
theorem value_eq_zero_iff (S : Symmetry) (b : UInt8) : S.value b = 0 ↔ b = 0 := by
  rw [value]
  cases S.negated with
  | false => exact Iff.rfl
  | true => exact not_iff_not.mp UInt8.neg_ne_zero

/-- Counting up becomes counting down if values are negated. -/
theorem value_add_one (b : UInt8) :
    S.value (b + 1) = if S.negated then S.value b - 1 else S.value b + 1 := by
  rw [value, value]
  cases S.negated with
  | false => rfl
  | true => exact UInt8.neg_add

/-- Counting down becomes counting up if values are negated. -/
theorem value_sub_one (b : UInt8) :
    S.value (b - 1) = if S.negated then S.value b + 1 else S.value b - 1 := by
  rw [value, value]
  cases S.negated with
  | false => rfl
  | true =>
      show -(b - 1) = -b + 1
      rw [UInt8.neg_sub, UInt8.sub_eq_add_neg, UInt8.add_comm]

-- ── Tapes that a symmetry relates ────────────────────────────────────────────────

/-- The second tape is the first one seen differently. -/
structure Relates (S : Symmetry) (t u : Tape) : Prop where
  size    : u.size = t.size
  pointer : u.pointer = S.place t.size t.pointer
  cells   : ∀ a, Tape.Within t.size a →
    u.read (some (S.place t.size a)) = (t.read (some a)).map S.value

/-- The pointer is on the other tape too. -/
theorem Relates.onTape (h : S.Relates t u) : u.OnTape := by
  show Tape.Within u.size u.pointer
  rw [h.size, h.pointer]
  exact within_place t.size_pos _

/-- The current cell is the one seen differently. -/
theorem Relates.current (h : S.Relates t u) (hon : t.OnTape) :
    u.current = t.current.map S.value := by
  rw [Tape.current_eq_read, Tape.current_eq_read, h.pointer]
  exact h.cells t.pointer hon

/-- The current cells of related tapes are images of each other. -/
theorem Relates.get_index (h : S.Relates t u) (hon : t.OnTape) :
    u.get h.onTape.index = S.value (t.get hon.index) := by
  have hcurrent := h.current hon
  rw [h.onTape.current_eq, hon.current_eq] at hcurrent
  exact Except.ok.inj hcurrent

/-- What is written to one tape can be written to the other. -/
theorem Relates.set (h : S.Relates t u) (hon : t.OnTape) (v : UInt8) :
    S.Relates (t.set hon.index v) (u.set h.onTape.index (S.value v)) where
  size    := by
    rw [Tape.size_set, Tape.size_set]
    exact h.size
  pointer := by
    rw [Tape.size_set]
    exact h.pointer
  cells   := by
    intro a ha
    rw [Tape.size_set] at ha ⊢
    have hplace : Tape.Within u.size (S.place t.size a) := by
      rw [h.size]
      exact within_place t.size_pos a
    rw [h.onTape.read_set _ hplace, hon.read_set v ha, h.pointer]
    by_cases hp : a = t.pointer
    · rw [if_pos hp, if_pos (congrArg (S.place t.size) hp)]
      rfl
    · rw [if_neg hp, if_neg fun heq => hp (place_inj ha hon heq)]
      exact h.cells a ha

/-- When the pointer of one tape goes `d` cells on, that of the other goes as far, in the direction
    of the turn. -/
theorem Relates.move (h : S.Relates t u) (d : Int) :
    S.Relates (t.setPointer ((t.pointer + d) % t.size))
      (u.setPointer ((u.pointer + S.turn * d) % u.size)) where
  size    := h.size
  pointer := by
    show (u.pointer + S.turn * d) % u.size = S.place t.size ((t.pointer + d) % t.size)
    rw [place_emod, place_add, h.pointer, h.size]
  cells   := by
    intro a ha
    rw [Tape.read_setPointer, Tape.read_setPointer]
    exact h.cells a ha

/-- A move to the right is one to the left on a mirrored tape. -/
theorem Relates.moveNext (h : S.Relates t u) (hon : t.OnTape) :
    S.Relates t.moveNext (if S.mirrored then u.movePrevious else u.moveNext) := by
  have hmove := h.move 1
  rw [← hon.moveNext_eq, turn] at hmove
  split
  · next hm =>
      rw [if_pos hm] at hmove
      rw [h.onTape.movePrevious_eq]
      exact hmove
  · next hm =>
      rw [if_neg hm] at hmove
      rw [h.onTape.moveNext_eq]
      exact hmove

/-- A move to the left is one to the right on a mirrored tape. -/
theorem Relates.movePrevious (h : S.Relates t u) (hon : t.OnTape) :
    S.Relates t.movePrevious (if S.mirrored then u.moveNext else u.movePrevious) := by
  have hmove := h.move (-1)
  rw [← Int.sub_eq_add_neg, ← hon.movePrevious_eq, turn] at hmove
  split
  · next hm =>
      rw [if_pos hm] at hmove
      rw [h.onTape.moveNext_eq]
      exact hmove
  · next hm =>
      rw [if_neg hm] at hmove
      rw [h.onTape.movePrevious_eq]
      exact hmove

/-- A zero tape is turned by its pointer alone. -/
theorem relates_reset (S : Symmetry) (t : Tape) :
    S.Relates t.reset (t.reset.setPointer (S.place t.size 0)) where
  size    := rfl
  pointer := by
    rw [Tape.size_reset]
    rfl
  cells   := by
    intro a ha
    rw [Tape.size_reset] at ha ⊢
    have hplace : Tape.Within t.size (S.place t.size a) := within_place t.size_pos a
    have hzero : S.value 0 = 0 := (S.value_eq_zero_iff 0).mpr rfl
    rw [Tape.read_setPointer, Tape.read_reset hplace, Tape.read_reset ha]
    exact congrArg Except.ok hzero.symm

/-- A symmetry that does not turn the ring leaves a zero tape as it is. -/
theorem relates_reset_self (h : S.shift = 0) (t : Tape) : S.Relates t.reset t.reset := by
  have hplace : S.place t.size 0 = 0 := by simp [place, h]
  have hrel := S.relates_reset t
  rw [hplace] at hrel
  exact hrel

-- ── Rotation, reflection, negation ───────────────────────────────────────────────

/-- The ring turned by `k` cells. -/
def rotation (k : Nat) : Symmetry :=
  { shift := k }

/-- The ring the other way round. -/
def reflection : Symmetry :=
  { mirrored := true }

/-- Every cell with the other sign. -/
def negation : Symmetry :=
  { negated := true }

end Symmetry

namespace Tape

variable {t u : Tape} {k : Nat}

/-- The second tape is the first one turned by `k` cells, with its pointer. -/
structure RotatedBy (k : Nat) (t u : Tape) : Prop where
  size    : u.size = t.size
  pointer : u.pointer = (t.pointer + k) % t.size
  cells   : ∀ a : Int, 0 ≤ a → a < t.size →
    u.read (some ((a + k) % t.size)) = t.read (some a)

/-- The second tape is the first one read from the first cell to the left, with its pointer. -/
structure Reflected (t u : Tape) : Prop where
  size    : u.size = t.size
  pointer : u.pointer = -t.pointer % t.size
  cells   : ∀ a : Int, 0 ≤ a → a < t.size → u.read (some a) = t.read (some (-a % t.size))

/-- The second tape has the cells of the first one with the other sign. -/
structure Negated (t u : Tape) : Prop where
  size    : u.size = t.size
  pointer : u.pointer = t.pointer
  cells   : ∀ a : Int, 0 ≤ a → a < t.size → u.read (some a) = (t.read (some a)).map (- ·)

theorem map_eq_self {ε α : Type} {f : α → α} (hf : ∀ a, f a = a) (r : Except ε α) :
    r.map f = r := by
  cases r with
  | error e => rfl
  | ok a => exact congrArg Except.ok (hf a)

theorem rotatedBy_iff : t.RotatedBy k u ↔ (Symmetry.rotation k).Relates t u := by
  have hplace (a : Int) : (Symmetry.rotation k).place t.size a = (a + k) % t.size := by
    show (1 * a + k) % t.size = _
    rw [one_mul]
  have hvalue (r : Except AddressError UInt8) : r.map (Symmetry.rotation k).value = r :=
    map_eq_self (fun _ => rfl) r
  constructor
  · rintro ⟨hsize, hpointer, hcells⟩
    refine ⟨hsize, hpointer.trans (hplace _).symm, ?_⟩
    intro a ha
    rw [hplace, hvalue]
    exact hcells a ha.1 ha.2
  · rintro ⟨hsize, hpointer, hcells⟩
    refine ⟨hsize, hpointer.trans (hplace _), ?_⟩
    intro a h0 h1
    rw [← hplace, hcells a ⟨h0, h1⟩, hvalue]

theorem Reflected.of_relates (h : Symmetry.reflection.Relates t u) : t.Reflected u := by
  have hplace (a : Int) : Symmetry.reflection.place t.size a = -a % t.size := by
    show (-1 * a + 0) % t.size = _
    rw [neg_one_mul, add_zero]
  refine ⟨h.size, h.pointer.trans (hplace _), ?_⟩
  intro a h0 h1
  -- The cell that is found at `a` is the one at `-a`.
  have ha : Within t.size a := ⟨h0, h1⟩
  have hback : Symmetry.reflection.place t.size (-a % t.size) = a := by
    rw [Symmetry.place_emod, hplace, neg_neg, ha.emod_eq]
  have hcell := h.cells (-a % t.size) (within_emod t.size_pos _)
  rw [hback] at hcell
  exact hcell.trans (map_eq_self (fun _ => rfl) _)

theorem Negated.of_relates (h : Symmetry.negation.Relates t u) (hon : t.OnTape) :
    t.Negated u := by
  have hplace {a : Int} (ha : Within t.size a) : Symmetry.negation.place t.size a = a := by
    show (1 * a + 0) % t.size = a
    rw [one_mul, add_zero, ha.emod_eq]
  refine ⟨h.size, h.pointer.trans (hplace hon), ?_⟩
  intro a h0 h1
  have ha : Within t.size a := ⟨h0, h1⟩
  have hcell := h.cells a ha
  rw [hplace ha] at hcell
  exact hcell

end Tape

end TapeMachine
