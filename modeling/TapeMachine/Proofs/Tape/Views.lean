import TapeMachine.Proofs.Tape.Addressing
import TapeMachine.Proofs.Tape.Dump

/-!
# Three views of one stretch

A stretch of cells can be looked at in three ways, and each has its own way to end with the tape:
reading cell by cell fails behind the last one, a copy is cut like any slice, and a dump counts how
many cells are left. `Tape.IsView` says that they see the same cells, and **they do for every
stretch whose beginning is counted from the left end**, also behind the tape (`isView_view`):

* a copy has as many bytes as there are cells in the stretch, and they are those that are read
  (`size_snapshot`, `read_of_getElem?_snapshot`);
* a dump shows these bytes and no others (`values_shown`), each in four characters
  (`length_flatMap_text`);
* only the address of the pointer is in brackets, so nothing is when it is off the tape
  (`of_getElem?_shown`, `countP_shown`).

Two stretches that adjoin are looked at as one, also where the tape ends in either of them
(`view_add`), and looking changes nothing (`call_looking`).
-/

namespace TapeMachine.Tape

variable {t : Tape} {a n : Nat} {b : UInt8}

-- ── Copies ───────────────────────────────────────────────────────────────────────

/-- An end of a stretch that is counted from the left end is cut at the right one only. -/
theorem bound_natCast (size a : Nat) : bound size a = min a size := by
  rw [bound, if_neg (by omega), Int.toNat_natCast]

/-- A copy has the cells from its start on, as many as it is asked for and as there are. -/
theorem toList_snapshot (t : Tape) (a n : Nat) :
    (t.snapshot a (some n)).toList = (t.cells.toList.drop a).take n := by
  have hstop : ((a : Int) + n) = (a + n : Nat) := by omega
  rw [snapshot]
  simp only [hstop, bound_natCast]
  rw [Array.toList_extract, List.extract_eq_take_drop]
  by_cases ha : a ≤ t.size
  · rw [Nat.min_eq_left ha, List.take_eq_take_iff, List.length_drop, Array.length_toList]
    unfold size at *
    omega
  · -- Behind the end of the tape there is nothing to take from.
    have hlength : t.cells.toList.length = t.size := Array.length_toList
    rw [List.drop_eq_nil_of_le (by omega), List.drop_eq_nil_of_le (by omega), List.take_nil,
      List.take_nil]

theorem size_snapshot (t : Tape) (a n : Nat) :
    (t.snapshot a (some n)).size = min n (t.size - a) := by
  rw [← Array.length_toList, toList_snapshot, List.length_take, List.length_drop,
    Array.length_toList, size]

theorem getElem?_snapshot {i : Nat} (hi : i < n) :
    (t.snapshot a (some n))[i]? = t.cells[a + i]? := by
  rw [← Array.getElem?_toList, toList_snapshot, List.getElem?_take_of_lt hi, List.getElem?_drop,
    Array.getElem?_toList]

/-- Copies of stretches that adjoin are a copy of both. -/
theorem snapshot_add (t : Tape) (a m n : Nat) :
    t.snapshot a (some (m + n : Nat))
      = t.snapshot a (some m) ++ t.snapshot (a + m : Nat) (some n) := by
  apply Array.ext'
  rw [Array.toList_append, toList_snapshot, toList_snapshot, toList_snapshot, List.take_add,
    List.drop_drop]

/-- What a cell holds is what is read at its address. -/
theorem read_of_getElem? (h : t.cells[a]? = some b) : t.read (some a) = .ok b := by
  obtain ⟨hlt, hget⟩ := Array.getElem?_eq_some_iff.mp h
  rw [read_eq ⟨Int.natCast_nonneg a, Int.ofNat_lt.mpr hlt⟩]
  exact congrArg Except.ok hget

/-- A byte of a copy is what is read at the address of its cell. -/
theorem read_of_getElem?_snapshot {i : Nat} (h : (t.snapshot a (some n))[i]? = some b) :
    t.read (some ((a : Int) + i)) = .ok b := by
  have hi : i < n := by
    obtain ⟨hlt, -⟩ := Array.getElem?_eq_some_iff.mp h
    rw [size_snapshot] at hlt
    omega
  rw [getElem?_snapshot hi] at h
  exact read_of_getElem? h

-- ── Dumps ────────────────────────────────────────────────────────────────────────

/-- A dump shows the bytes of a copy. -/
theorem values_shown (t : Tape) (a n : Nat) :
    (t.shown a n).map Shown.value = (t.snapshot a (some n)).toList := by
  rw [toList_snapshot, shown, List.mapIdx_eq_zipIdx_map, List.map_map]
  exact List.zipIdx_map_fst 0 _

theorem length_flatMap_text (cells : List Shown) :
    (cells.flatMap Shown.text).length = 4 * cells.length := by
  induction cells with
  | nil => rfl
  | cons c cells ih =>
      have hc : c.text.length = 4 := by
        rw [Shown.text]
        split
        · rfl
        · rfl
      rw [List.flatMap_cons, List.length_append, hc, ih, List.length_cons]
      omega

theorem shown_of_size_le (h : t.size ≤ a) (n : Nat) : t.shown a n = [] := by
  rw [← List.length_eq_zero_iff, length_shown]
  omega

/-- Two stretches that adjoin are shown as one. The marks stay where they are, since they go by
    addresses and not by places in the row. -/
theorem shown_add (t : Tape) (a m n : Nat) :
    t.shown a (m + n) = t.shown a m ++ t.shown (a + m) n := by
  induction m generalizing a with
  | zero =>
      rw [Nat.zero_add]
      rfl
  | succ m ih =>
      by_cases h : a < t.size
      · rw [Nat.add_right_comm, shown_succ h, shown_succ h, ih, List.cons_append,
          Nat.add_right_comm a 1, Nat.add_assoc]
      · -- Behind the end of the tape there is nothing to show, nor further on.
        rw [shown_of_size_le (by omega), shown_of_size_le (by omega), shown_of_size_le (by omega)]
        rfl

/-- The pointer is at one address, so it marks no two cells. -/
theorem countP_shown (t : Tape) (a n : Nat) : (t.shown a n).countP Shown.marked ≤ 1 := by
  rw [List.countP_eq_length_filter]
  by_cases h : ∃ (j : Nat) (c : Shown), (t.shown a n)[j]? = some c ∧ c.marked = true
  · obtain ⟨j, c, hc, hmarked⟩ := h
    have hj : ((a + j : Nat) : Int) = t.pointer := (of_getElem?_shown hc).2.mp hmarked
    have hone : (t.shown a n).filter Shown.marked = [c] := by
      refine filter_eq_singleton hc ?_
      intro i d hd
      rw [(of_getElem?_shown hd).2]
      omega
    rw [hone, List.length_singleton]
  · have hnone : (t.shown a n).filter Shown.marked = [] := by
      rw [List.filter_eq_nil_iff]
      intro c hc hmarked
      obtain ⟨j, hj⟩ := List.getElem?_of_mem hc
      exact h ⟨j, c, hj, hmarked⟩
    rw [hnone]
    exact Nat.zero_le 1

-- ── Calls ────────────────────────────────────────────────────────────────────────

theorem call_snapshot (t : Tape) (a n : Int) :
    t.call .snapshot [.whole a, .whole n] = (.ok (.cells (t.snapshot a (some n))), t) := rfl

theorem call_dump {a n : Int} {text : String} (h : t.dump a n = .ok text) :
    t.call .dump [.whole a, .whole n] = (.ok (.text text), t) := by
  show (dumpOf.dumped t a n, t) = _
  rw [dumpOf.dumped, h]

/-- Looking changes nothing, whatever the arguments are and also if it fails. -/
theorem call_looking (t : Tape) {method : Method} (h : method ∈ [Method.read, .snapshot, .dump])
    (args : List Value) : (t.call method args).2 = t := by
  simp only [List.mem_cons, List.not_mem_nil, or_false] at h
  rcases h with rfl | rfl | rfl
  all_goals
    rw [call]
    split
    · rfl
    · rfl

-- ── Views ────────────────────────────────────────────────────────────────────────

/-- What is seen of a stretch: a copy of it, its text, and the cells that the text shows. -/
structure View where
  copy  : Array UInt8
  text  : String
  cells : List Shown

/-- What is seen of two stretches, one behind the other. -/
instance : Append View where
  append v w := ⟨v.copy ++ w.copy, v.text ++ w.text, v.cells ++ w.cells⟩

/-- The three ways to look at the `n` cells from address `a` on see the same, and nothing of it
    changes the tape. -/
structure IsView (t : Tape) (a n : Int) (v : View) : Prop where
  copied     : t.call .snapshot [.whole a, .whole n] = (.ok (.cells v.copy), t)
  dumped     : t.call .dump [.whole a, .whole n] = (.ok (.text v.text), t)
  /-- The stretch ends with the tape, and is empty if it begins behind it. -/
  size_eq    : (v.copy.size : Int) = max 0 (min n (t.size - a))
  /-- Each byte of the copy is the one that is read at its address. -/
  read       : ∀ (i : Nat) b, v.copy[i]? = some b →
    t.call .read [.whole (a + i)] = (.ok (.cell b), t)
  length_eq  : v.text.length = 4 * v.copy.size
  shows      : readDump? v.text.toList = some v.cells
  /-- The digits of the text are those of the bytes copied. -/
  values     : v.cells.map Shown.value = v.copy.toList
  marked_iff : ∀ (i : Nat) c, v.cells[i]? = some c → (c.marked = true ↔ a + i = t.pointer)
  marked_le  : v.cells.countP Shown.marked ≤ 1

/-- The view of a stretch. -/
def view (t : Tape) (a n : Nat) : View where
  copy  := t.snapshot a (some n)
  text  := String.ofList ((t.shown a n).flatMap Shown.text)
  cells := t.shown a n

theorem isView_view (t : Tape) (a n : Nat) : t.IsView a n (t.view a n) := by
  constructor
  · exact call_snapshot ..
  · refine call_dump ?_
    rw [dump_eq (Int.natCast_nonneg a)]
    rfl
  · show ((t.snapshot a (some n)).size : Int) = _
    rw [size_snapshot]
    omega
  · intro i b hb
    have hcall := t.call_read (some ((a : Int) + i))
    rw [read_of_getElem?_snapshot hb] at hcall
    exact hcall
  · show (String.ofList ((t.shown a n).flatMap Shown.text)).length
      = 4 * (t.snapshot a (some n)).size
    rw [String.length_ofList, length_flatMap_text, length_shown, size_snapshot]
  · show readDump? (String.ofList ((t.shown a n).flatMap Shown.text)).toList = _
    rw [String.toList_ofList]
    exact readDump?_text _
  · exact values_shown ..
  · intro i c hc
    exact (of_getElem?_shown hc).2
  · exact countP_shown ..

/-- Stretches that adjoin are seen as one. -/
theorem view_add (t : Tape) (a m n : Nat) :
    t.view a (m + n) = t.view a m ++ t.view (a + m) n := by
  have hcopy := t.snapshot_add a m n
  rw [view, hcopy, shown_add, List.flatMap_append, String.ofList_append]
  rfl

/-- **The three views of a tape agree**, on it and behind its end, wherever the pointer is. What is
    seen of two stretches that adjoin is what is seen of both together. -/
theorem views_agree (t : Tape) {a m n : Int} (ha : 0 ≤ a) (hm : 0 ≤ m) (hn : 0 ≤ n) :
    (∀ method ∈ [Method.read, .snapshot, .dump], ∀ args, (t.call method args).2 = t)
    ∧ ∃ v w, t.IsView a m v ∧ t.IsView (a + m) n w ∧ t.IsView a (m + n) (v ++ w) := by
  refine ⟨fun method hmethod args => t.call_looking hmethod args, ?_⟩
  obtain ⟨a, rfl⟩ := Int.eq_ofNat_of_zero_le ha
  obtain ⟨m, rfl⟩ := Int.eq_ofNat_of_zero_le hm
  obtain ⟨n, rfl⟩ := Int.eq_ofNat_of_zero_le hn
  refine ⟨t.view a m, t.view (a + m) n, t.isView_view a m, t.isView_view (a + m) n, ?_⟩
  rw [← view_add]
  exact t.isView_view a (m + n)

/-- Two stretches of which the second begins on the last cell, where the pointer is, and goes on
    behind the end. -/
theorem views_at_right_end :
    let t : Tape := { cells := #[0, 0xAB, 7], pointer := 2, size_pos := by decide }
    ((0 : Int) ≤ 1 ∧ (0 : Int) ≤ 1 ∧ (0 : Int) ≤ 5)
    ∧ (∀ method ∈ [Method.read, .snapshot, .dump], ∀ args, (t.call method args).2 = t)
    ∧ ∃ v w, t.IsView 1 1 v ∧ t.IsView (1 + 1) 5 w ∧ t.IsView 1 (1 + 5) (v ++ w) := by
  intro t
  exact ⟨⟨by decide, by decide, by decide⟩,
    views_agree t (by decide) (by decide) (by decide)⟩

/-- A pointer may name the last cell from the right end, and is at none of the addresses shown. -/
example :
    let t : Tape := { cells := #[0, 0xAB, 7], pointer := -1, size_pos := by decide }
    t.current = .ok 7 ∧ t.dump 1 9 = .ok " AB  07 " ∧ t.snapshot 1 (some 9) = #[0xAB, 7] :=
  ⟨rfl, rfl, rfl⟩

end TapeMachine.Tape
