import TapeMachine.Tape.View

/-!
# Pointers on the tape

A caller may put the pointer anywhere, but no operation takes it off the tape once it stands there.
`Tape.OnTape` says that it does, and under it nothing about the tape can go wrong:

* the current cell can be found, read and shown (`OnTape.here_eq`, `OnTape.current_eq`,
  `OnTape.exists_window`);
* moving in either direction stays on the tape, also where it has one cell only
  (`OnTape.moveNext`, `OnTape.movePrevious`);
* the number of cells never changes.
-/

namespace TapeMachine.Tape

variable {t : Tape} {a : Int}

/-- The pointer stands on one of the cells. -/
def OnTape (t : Tape) : Prop :=
  0 ≤ t.pointer ∧ t.pointer < t.size

-- ── Sizes and pointers ───────────────────────────────────────────────────────────

/-- A change of a cell adds none and takes none away. -/
@[simp] theorem size_set (i : Fin t.cells.size) (v : UInt8) : (t.set i v).size = t.size := by
  simp [size, set]

/-- A change of a cell leaves the pointer where it is. -/
@[simp] theorem pointer_set (i : Fin t.cells.size) (v : UInt8) :
    (t.set i v).pointer = t.pointer := rfl

@[simp] theorem size_moveNext : t.moveNext.size = t.size := rfl

@[simp] theorem size_movePrevious : t.movePrevious.size = t.size := rfl

/-- A new tape has as many cells as were asked for. -/
@[simp] theorem size_blank (n : Nat) (h : 0 < n) : (blank n h).size = n :=
  Array.size_replicate ..

/-- A reset keeps the number of cells. -/
@[simp] theorem size_reset : t.reset.size = t.size :=
  size_blank ..

/-- Counting keeps the number of cells. -/
theorem size_of_increment {u : Tape} (h : t.increment = .ok u) : u.size = t.size := by
  rw [increment] at h
  split at h
  · rw [← Except.ok.inj h, size_set]
  · exact nomatch h

theorem size_of_decrement {u : Tape} (h : t.decrement = .ok u) : u.size = t.size := by
  rw [decrement] at h
  split at h
  · rw [← Except.ok.inj h, size_set]
  · exact nomatch h

/-- Writing keeps the number of cells, wherever it goes. -/
theorem size_of_write {u : Tape} {v : Int} {a? : Option Int} (h : t.write v a? = .ok u) :
    u.size = t.size := by
  rw [write] at h
  split at h
  · rw [← Except.ok.inj h, size_set]
  · exact nomatch h

/-- A reset leaves nothing of a tape but the number of its cells. -/
theorem reset_congr {u : Tape} (h : t.size = u.size) : t.reset = u.reset := by
  simp only [reset, blank, h]

/-- What a tape is made as, if a value asks for a size at all. -/
theorem eq_blank_of_ofSize {v : Value} (h : ofSize v = .ok t) :
    ∃ (n : Nat) (hn : 0 < n), v = .whole n ∧ t = blank n hn := by
  cases v with
  | whole n =>
      rw [ofSize] at h
      by_cases hn : 0 < n.toNat
      · rw [dif_pos hn] at h
        split at h
        · refine ⟨n.toNat, hn, ?_, (Except.ok.inj h).symm⟩
          rw [Int.toNat_of_nonneg (by omega)]
        · exact nomatch h
      · rw [dif_neg hn] at h
        exact nomatch h
  | _ => exact nomatch h

-- ── Staying on the tape ──────────────────────────────────────────────────────────

/-- A change of a cell leaves the pointer on the tape. -/
theorem OnTape.set (h : t.OnTape) (i : Fin t.cells.size) (v : UInt8) : (t.set i v).OnTape := by
  rw [OnTape, pointer_set, size_set]
  exact h

/-- From the last cell the pointer goes on to the first one. -/
theorem OnTape.moveNext (h : t.OnTape) : t.moveNext.OnTape := by
  obtain ⟨h0, h1⟩ := h
  have hp := t.size_pos
  unfold OnTape Tape.moveNext size at *
  dsimp only at *
  split
  · omega
  · omega

/-- From the first cell the pointer goes back to the last one. -/
theorem OnTape.movePrevious (h : t.OnTape) : t.movePrevious.OnTape := by
  obtain ⟨h0, h1⟩ := h
  have hp := t.size_pos
  unfold OnTape Tape.movePrevious size at *
  dsimp only at *
  split
  · omega
  · omega

/-- The pointer of a new tape stands on its first cell. -/
theorem onTape_blank (n : Nat) (h : 0 < n) : (blank n h).OnTape := by
  refine ⟨Int.le_refl 0, ?_⟩
  rw [size_blank]
  exact Int.natCast_pos.mpr h

/-- A reset puts the pointer on the tape, wherever it was. -/
theorem onTape_reset : t.reset.OnTape :=
  onTape_blank ..

-- ── Looking at the current cell ──────────────────────────────────────────────────

/-- An address counted from the left end names its cell. -/
theorem locate_eq (h0 : 0 ≤ a) (h1 : a < t.size) :
    t.locate a = .ok ⟨a.toNat, by unfold size at h1; omega⟩ :=
  dif_pos ⟨h0, h1⟩

/-- The cell under a pointer on the tape. -/
def OnTape.index (h : t.OnTape) : Fin t.cells.size :=
  ⟨t.pointer.toNat, by obtain ⟨h0, h1⟩ := h; unfold size at h1; omega⟩

/-- There is a cell under the pointer. -/
theorem OnTape.here_eq (h : t.OnTape) : t.here = .ok h.index :=
  locate_eq h.1 h.2

/-- It can be read. -/
theorem OnTape.current_eq (h : t.OnTape) : t.current = .ok (t.get h.index) := by
  rw [current, read, Option.getD_none, locate_eq h.1 h.2]
  rfl

/-- It can be written to. -/
theorem OnTape.write_eq (h : t.OnTape) (v : Int) :
    t.write v none = .ok (t.set h.index (UInt8.ofInt v)) := by
  rw [write, Option.getD_none, locate_eq h.1 h.2]
  rfl

/-- A byte is found again from its number. -/
theorem ofInt_toNat (b : UInt8) : UInt8.ofInt b.toNat = b := by
  have hb := b.toNat_lt
  have hmod : ((b.toNat : Int) % 2 ^ 8).toNat = b.toNat := by omega
  rw [UInt8.ofInt, hmod, UInt8.ofNat_toNat]

/-- A number becomes the byte that it is modulo 256. -/
theorem toNat_ofInt (a : Int) : (UInt8.ofInt a).toNat = (a % 256).toNat := by
  rw [UInt8.ofInt, UInt8.toNat_ofNat']
  omega

/-- The current cell holds what was put into it. -/
theorem OnTape.current_set (h : t.OnTape) (v : UInt8) :
    (t.set h.index v).current = .ok v := by
  rw [(h.set h.index v).current_eq]
  exact congrArg Except.ok (Array.getElem_set_self h.index.isLt)

/-- Cells that are all on the tape can be dumped. -/
theorem exists_dumpFrom (shown : Array Char) (count : Nat) (h0 : 0 ≤ a)
    (h1 : a + count ≤ t.size) : ∃ cs, t.dumpFrom shown count a = .ok cs := by
  induction count generalizing shown a with
  | zero => exact ⟨shown, rfl⟩
  | succ count ih =>
      rw [dumpFrom, locate_eq h0 (by omega)]
      exact ih _ (by omega) (by omega)

/-- The stretch around a pointer on the tape can be shown. -/
theorem OnTape.exists_window (h : t.OnTape) : ∃ w, t.window = .ok w := by
  obtain ⟨h0, h1⟩ := h
  obtain ⟨cs, hcs⟩ := t.exists_dumpFrom (a := t.pointer / 8 * 8) #[]
    (min (t.pointer / 8 * 8 + 8) t.size - t.pointer / 8 * 8).toNat (by omega) (by omega)
  refine ⟨String.ofList cs.toList, ?_⟩
  rw [window, dump, hcs]

end TapeMachine.Tape
