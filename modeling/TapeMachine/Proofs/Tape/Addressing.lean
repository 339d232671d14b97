import TapeMachine.Proofs.Tape.Symmetry
import TapeMachine.Tape.Method

/-!
# Addresses

Every cell has two addresses, one counted from the left end and one, below zero, from the right.
Where no address is given the pointer is meant, and that may be any number at all. Here it is said
once which cell an address names (`locate_of_names`), and that it names none outside the two ranges.
Two addresses name one cell exactly if they differ by whole rounds (`cellAt_eq_iff`), and so
**what is read after a write is settled by a congruence** (`read_set`).

From it follow the laws of reading and writing on all tapes (`addressing_laws`): of two writes the
later one wins or their order does not matter, and an address that names no cell changes nothing.
-/

namespace TapeMachine.Tape

variable {t u : Tape} {a b v w : Int} {a? b? : Option Int} {i j : Fin t.cells.size} {x y : UInt8}

-- ── Which cell an address names ──────────────────────────────────────────────────

/-- The address that is meant: the pointer when none is given. -/
def address (t : Tape) (a? : Option Int) : Int :=
  a?.getD t.pointer

/-- The address is that of a cell, counted from the left end or, below zero, from the right. -/
def Names (t : Tape) (a : Int) : Prop :=
  -(t.size : Int) ≤ a ∧ a < t.size

/-- The cell that an address comes to, around the ring. -/
def cellAt (t : Tape) (a : Int) : Fin t.cells.size :=
  ⟨(a % t.size).toNat, (within_emod t.size_pos a).toNat_lt⟩

/-- Two addresses come to one cell exactly if they differ by whole rounds. -/
theorem cellAt_eq_iff : t.cellAt a = t.cellAt b ↔ a ≡ b [ZMOD t.size] := by
  have ha : 0 ≤ a % t.size := (within_emod t.size_pos a).1
  have hb : 0 ≤ b % t.size := (within_emod t.size_pos b).1
  rw [Fin.ext_iff]
  constructor
  · intro h
    have h' : (a % t.size).toNat = (b % t.size).toNat := h
    show a % t.size = b % t.size
    omega
  · intro h
    exact congrArg Int.toNat h

/-- An address that names a cell is found there. -/
theorem locate_of_names (h : t.Names a) : t.locate a = .ok (t.cellAt a) := by
  obtain ⟨hleft, hright⟩ := h
  by_cases h0 : 0 ≤ a
  · rw [locate_eq h0 hright]
    refine congrArg Except.ok (Fin.ext ?_)
    show a.toNat = (a % t.size).toNat
    rw [Int.emod_eq_of_lt h0 hright]
  · have hsize : (t.size : Int) = t.cells.size := rfl
    rw [locate, dif_neg fun h => h0 h.1, dif_pos ⟨hleft, by omega⟩]
    refine congrArg Except.ok (Fin.ext ?_)
    show (a + t.size).toNat = (a % t.size).toNat
    rw [← Int.add_emod_right, Int.emod_eq_of_lt (by omega) (by omega)]

/-- An address that names no cell is not found. -/
theorem locate_of_not_names (h : ¬ t.Names a) : ∃ e, t.locate a = .error e := by
  have hleft : ¬ (0 ≤ a ∧ a < (t.cells.size : Int)) := by
    rintro ⟨h0, h1⟩
    exact h ⟨by omega, h1⟩
  have hright : ¬ (-(t.cells.size : Int) ≤ a ∧ a < 0) := by
    rintro ⟨h0, h1⟩
    exact h ⟨h0, by omega⟩
  rw [locate, dif_neg hleft, dif_neg hright]
  split
  · exact ⟨_, rfl⟩
  · exact ⟨_, rfl⟩

-- ── Reading and writing there ────────────────────────────────────────────────────

/-- A read is the look at the cell that is found. -/
theorem read_eq_map (t : Tape) (a? : Option Int) :
    t.read a? = (t.locate (t.address a?)).map t.get := by
  rw [read, address]
  cases t.locate (a?.getD t.pointer) with
  | ok i => rfl
  | error e => rfl

/-- A write is the change of the cell that is found. -/
theorem write_eq_map (t : Tape) (v : Int) (a? : Option Int) :
    t.write v a? = (t.locate (t.address a?)).map fun i => t.set i (UInt8.ofInt v) := by
  rw [write, address]
  cases t.locate (a?.getD t.pointer) with
  | ok i => rfl
  | error e => rfl

theorem read_of_names (h : t.Names (t.address a?)) :
    t.read a? = .ok (t.get (t.cellAt (t.address a?))) := by
  rw [read_eq_map, locate_of_names h]
  rfl

theorem write_of_names (h : t.Names (t.address a?)) :
    t.write v a? = .ok (t.set (t.cellAt (t.address a?)) (UInt8.ofInt v)) := by
  rw [write_eq_map, locate_of_names h]
  rfl

/-- Where an address names no cell, reading and writing fail in the same way. -/
theorem fails_of_not_names (h : ¬ t.Names (t.address a?)) :
    ∃ e, t.read a? = .error e ∧ ∀ v, t.write v a? = .error e := by
  obtain ⟨e, he⟩ := locate_of_not_names h
  refine ⟨e, ?_, fun v => ?_⟩
  · rw [read_eq_map, he]
    rfl
  · rw [write_eq_map, he]
    rfl

/-- A write succeeds exactly if its address names a cell. -/
theorem exists_write_iff : (∃ u, t.write v a? = .ok u) ↔ t.Names (t.address a?) := by
  constructor
  · rintro ⟨u, hu⟩
    by_contra h
    obtain ⟨e, -, he⟩ := fails_of_not_names h
    rw [he] at hu
    exact nomatch hu
  · intro h
    exact ⟨_, write_of_names h⟩

/-- What a write that succeeds makes of the tape. -/
theorem eq_set_of_write (h : t.write v a? = .ok u) :
    u = t.set (t.cellAt (t.address a?)) (UInt8.ofInt v) := by
  have hnames : t.Names (t.address a?) := exists_write_iff.mp ⟨u, h⟩
  rw [write_of_names hnames] at h
  exact (Except.ok.inj h).symm

-- ── One write and what comes after it ────────────────────────────────────────────

/-- A write moves no address to another cell. -/
theorem names_set : (t.set i x).Names a ↔ t.Names a := by
  rw [Names, Names, size_set]

/-- A change of a cell leaves every address where it is. -/
theorem val_cellAt_set (i : Fin t.cells.size) (x : UInt8) (a : Int) :
    ((t.set i x).cellAt a).val = (t.cellAt a).val := by
  show (a % (t.set i x).size).toNat = (a % t.size).toNat
  rw [size_set]

/-- **Read over write:** a cell that is written to is the only one to change. -/
theorem read_set (h : t.Names (t.address b?)) :
    (t.set i x).read b? = if t.cellAt (t.address b?) = i then .ok x else t.read b? := by
  have h' : (t.set i x).Names ((t.set i x).address b?) := names_set.mpr h
  have hget : (t.set i x).get ((t.set i x).cellAt (t.address b?))
      = if i.val = (t.cellAt (t.address b?)).val then x
        else t.get (t.cellAt (t.address b?)) := by
    rw [get, Fin.getElem_fin]
    simp only [val_cellAt_set]
    exact @Array.getElem_set _ _ _ i.isLt _ _ _
  have haddress : (t.set i x).address b? = t.address b? := rfl
  rw [read_of_names h', haddress, hget, read_of_names h]
  by_cases hi : t.cellAt (t.address b?) = i
  · rw [if_pos hi, if_pos (congrArg Fin.val hi.symm)]
  · rw [if_neg hi, if_neg fun hval => hi (Fin.ext hval.symm)]

/-- A write behind another one: the cell is the same, and the tape is the one after the first. -/
theorem write_set (h : t.Names (t.address b?)) :
    ∃ j : Fin (t.set i x).cells.size, j.val = (t.cellAt (t.address b?)).val
      ∧ (t.set i x).write w b? = .ok ((t.set i x).set j (UInt8.ofInt w)) := by
  have h' : (t.set i x).Names ((t.set i x).address b?) := names_set.mpr h
  exact ⟨_, val_cellAt_set i x _, write_of_names h'⟩

/-- The later of two writes to one cell wins. -/
theorem write_write_of_modEq (ha : t.Names (t.address a?)) (hb : t.Names (t.address b?))
    (hab : t.address a? ≡ t.address b? [ZMOD t.size]) :
    (t.write v a?).bind (fun u => u.write w b?) = t.write w b? := by
  obtain ⟨j, hj, hwrite⟩ := write_set (i := t.cellAt (t.address a?)) (x := UInt8.ofInt v) (w := w) hb
  rw [write_of_names ha, write_of_names hb]
  refine hwrite.trans (congrArg Except.ok ?_)
  rw [← cellAt_eq_iff.mpr hab] at hj ⊢
  unfold set
  congr 1
  simp only [hj]
  exact Array.set_set ..

/-- The order of writes to two cells does not matter. -/
theorem write_comm (ha : t.Names (t.address a?)) (hb : t.Names (t.address b?))
    (hab : ¬ t.address a? ≡ t.address b? [ZMOD t.size]) :
    (t.write v a?).bind (fun u => u.write w b?) = (t.write w b?).bind (fun u => u.write v a?) := by
  obtain ⟨j, hj, hwrite⟩ := write_set (i := t.cellAt (t.address a?)) (x := UInt8.ofInt v) (w := w) hb
  obtain ⟨i, hi, hwrite'⟩ := write_set (i := t.cellAt (t.address b?)) (x := UInt8.ofInt w) (w := v) ha
  have hne : (t.cellAt (t.address a?)).val ≠ (t.cellAt (t.address b?)).val :=
    fun h => hab (cellAt_eq_iff.mp (Fin.ext h))
  rw [write_of_names ha, write_of_names hb]
  refine hwrite.trans (Eq.trans (congrArg Except.ok ?_) hwrite'.symm)
  unfold set
  congr 1
  simp only [hi, hj]
  exact Array.set_comm _ _ hne

-- ── Calls ────────────────────────────────────────────────────────────────────────

/-- An address as it is given to a method. -/
def argument (a? : Option Int) : Value :=
  a?.elim .absent .whole

/-- A call for a write is a write, and leaves the tape as it was if that fails. -/
theorem call_write (t : Tape) (v : Int) (a? : Option Int) :
    t.call .write [.whole v, argument a?]
      = t.changed ((t.write v a?).mapError AddressError.raised) := by
  cases a? with
  | none => rfl
  | some a => rfl

/-- A call for a read is a read, and leaves the tape as it was. -/
theorem call_read (t : Tape) (a? : Option Int) :
    t.call .read [argument a?] = (match t.read a? with
      | .ok c    => .ok (.cell c)
      | .error e => .error e.raised, t) := by
  cases a? with
  | none => rfl
  | some a => rfl

/-- Where the pointer names a cell, counting is reading it and writing one more or one less. -/
theorem counts_of_names (h : t.Names t.pointer) : ∃ c, t.read none = .ok c
    ∧ t.increment = t.write (c.toNat + 1) none ∧ t.decrement = t.write (c.toNat - 1) none := by
  have h' : t.Names (t.address none) := h
  have hhere : t.here = .ok (t.cellAt t.pointer) := locate_of_names h
  refine ⟨_, read_of_names h', ?_, ?_⟩
  · rw [increment, hhere, write_of_names h', UInt8.ofInt_add, ofInt_toNat]
    rfl
  · rw [decrement, hhere, write_of_names h', Int.sub_eq_add_neg, UInt8.ofInt_add, ofInt_toNat,
      UInt8.ofInt_neg, ← UInt8.sub_eq_add_neg]
    rfl

/-- The laws of reading and writing at the addresses of a tape. -/
structure AddressLaws (t : Tape) : Prop where
  /-- A write succeeds exactly at the addresses that name a cell. -/
  write_iff   : ∀ v a?, (∃ u, t.write v a? = .ok u) ↔ t.Names (t.address a?)
  write_keeps : ∀ v a? u, t.write v a? = .ok u → u.pointer = t.pointer ∧ u.size = t.size
  /-- Under each of its addresses the cell written to has the number modulo 256. -/
  read_same   : ∀ v a? b? u, t.write v a? = .ok u → t.Names (t.address b?) →
    t.address a? ≡ t.address b? [ZMOD t.size] →
    ∃ c, u.read b? = .ok c ∧ (c.toNat : Int) = v % 256
  /-- Every other cell has what it had. -/
  read_other  : ∀ v a? b? u, t.write v a? = .ok u → t.Names (t.address b?) →
    ¬ t.address a? ≡ t.address b? [ZMOD t.size] →
    ∃ c, t.read b? = .ok c ∧ u.read b? = .ok c
  commute     : ∀ v w a? b?, t.Names (t.address a?) → t.Names (t.address b?) →
    ¬ t.address a? ≡ t.address b? [ZMOD t.size] →
    (t.write v a?).bind (fun u => u.write w b?) = (t.write w b?).bind (fun u => u.write v a?)
  later_wins  : ∀ v w a? b?, t.Names (t.address a?) → t.Names (t.address b?) →
    t.address a? ≡ t.address b? [ZMOD t.size] →
    (t.write v a?).bind (fun u => u.write w b?) = t.write w b?
  counts      : t.Names t.pointer → ∃ c, t.read none = .ok c
    ∧ t.increment = t.write (c.toNat + 1) none ∧ t.decrement = t.write (c.toNat - 1) none
  /-- At an address that names no cell a call fails and leaves the tape as it was. -/
  outside     : ∀ v a?, ¬ t.Names (t.address a?) → ∃ e : Raised, e.name = "IndexError"
    ∧ t.call .write [.whole v, argument a?] = (.error e, t)
    ∧ t.call .read [argument a?] = (.error e, t)
  /-- So does counting where the pointer names none. -/
  lost        : ¬ t.Names t.pointer → ∃ e : Raised, e.name = "IndexError"
    ∧ t.call .increment [] = (.error e, t) ∧ t.call .decrement [] = (.error e, t)

/-- **Reading and writing obey the address laws**, on every tape and wherever its pointer is. -/
theorem addressing_laws (t : Tape) : AddressLaws t := by
  constructor
  · intro v a?
    exact exists_write_iff
  · intro v a? u h
    rw [eq_set_of_write h]
    exact ⟨rfl, size_set ..⟩
  · intro v a? b? u h hb hab
    refine ⟨UInt8.ofInt v, ?_, ?_⟩
    · rw [eq_set_of_write h, read_set hb, if_pos (cellAt_eq_iff.mpr hab.symm)]
    · rw [toNat_ofInt]
      omega
  · intro v a? b? u h hb hab
    have hne : t.cellAt (t.address b?) ≠ t.cellAt (t.address a?) :=
      fun heq => hab (cellAt_eq_iff.mp heq).symm
    refine ⟨_, read_of_names hb, ?_⟩
    rw [eq_set_of_write h, read_set hb, if_neg hne, read_of_names hb]
  · intro v w a? b? ha hb hab
    exact write_comm ha hb hab
  · intro v w a? b? ha hb hab
    exact write_write_of_modEq ha hb hab
  · exact counts_of_names
  · intro v a? h
    obtain ⟨e, hread, hwrite⟩ := fails_of_not_names h
    refine ⟨e.raised, rfl, ?_, ?_⟩
    · rw [call_write, hwrite]
      rfl
    · rw [call_read, hread]
  · intro h
    obtain ⟨e, he⟩ := locate_of_not_names h
    have hhere : t.here = .error e := he
    refine ⟨e.raised, rfl, ?_, ?_⟩
    · show t.changed (t.increment.mapError AddressError.raised) = _
      rw [increment, hhere]
      rfl
    · show t.changed (t.decrement.mapError AddressError.raised) = _
      rw [decrement, hhere]
      rfl

/-- A number that is too large for a cell, written at one address of the last cell and read at the
    other one. -/
example : ((blank 3 (by decide)).write 0x18D (some (-1))).bind (fun u => u.read (some 2))
    = .ok 0x8D := by rfl

end TapeMachine.Tape
