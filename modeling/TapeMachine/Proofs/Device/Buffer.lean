import TapeMachine.Handle

/-!
# Calls on buffers

What the three calls of a machine do to an open buffer of bytes: a read takes the byte at the
position, if there is one, a write at the end adds a byte, and a flush changes nothing.

The streams of a host stand in one row, and a call on one of them, through any handle, depends on
this one only and leaves the others as they were. What a call does to anything that is told of its
stream (`Devices.view_use`) is what it does to it in the row.
-/

namespace TapeMachine

-- ── Buffers ──────────────────────────────────────────────────────────────────────

/-- A read of one item takes the one at the position. -/
theorem Buffer.peek_one {α : Type} (b : Buffer α) :
    b.peek 1 = b.contents[b.position]?.toList := by
  show (b.contents.extract b.position (b.position + 1)).toList = _
  rw [Array.toList_extract, List.extract_eq_take_drop, Nat.add_sub_cancel_left, List.take_one,
    List.head?_drop, Array.getElem?_toList]

/-- A read of all items takes those from the position on. -/
theorem Buffer.peek_all {α : Type} (b : Buffer α) :
    b.peek (-1) = b.contents.toList.drop b.position := by
  show (b.contents.extract b.position b.contents.size).toList = _
  rw [Array.toList_extract, List.extract_eq_take_drop, ← Array.length_toList, ← List.length_drop,
    List.take_length]

/-- An item that is put at the end makes the row longer. -/
theorem Buffer.put_of_size_le {α : Type} {b : Buffer α} (h : b.contents.size ≤ b.position)
    (a : α) : b.put a = { b with contents := b.contents.push a, position := b.position + 1 } :=
  dif_neg (Nat.not_lt_of_le h)

/-- Items that are put at the end leave the position there. -/
theorem Buffer.putAll_at_end {α : Type} {b : Buffer α} (h : b.contents.size ≤ b.position)
    (as : List α) : (b.putAll as).closed = b.closed
      ∧ (b.putAll as).contents.size ≤ (b.putAll as).position := by
  induction as generalizing b with
  | nil => exact ⟨rfl, h⟩
  | cons a as ih =>
      have hput := Buffer.put_of_size_le h a
      have hend : (b.put a).contents.size ≤ (b.put a).position := by
        rw [hput, Array.size_push]
        exact Nat.succ_le_succ h
      obtain ⟨hclosed, hsize⟩ := ih hend
      refine ⟨hclosed.trans ?_, hsize⟩
      rw [hput]

-- ── Devices ──────────────────────────────────────────────────────────────────────

namespace Device

/-- A read from an open buffer takes as many bytes as are wanted and there. -/
theorem read_open {b : Buffer UInt8} (hopen : b.closed = false) {n : Int}
    (hn : fitsWord n = true) :
    Device.read (.whole n) (.bytes b)
      = (.ok (.bytes (b.peek n)), .bytes (b.skip (b.peek n).length)) := by
  have hwanted : wanted (.whole n) = .ok n := by
    show (if fitsWord n then _ else _) = _
    rw [if_pos hn]
  rw [read, take, hwanted]
  dsimp only
  rw [hopen]
  rfl

/-- A read of one byte from an open buffer at position `k`. -/
theorem read_bytes (w : Array UInt8) (k : Nat) :
    Device.read (.whole 1) (.bytes { contents := w, position := k })
      = (.ok (.bytes w[k]?.toList),
          .bytes { contents := w, position := k + w[k]?.toList.length }) := by
  rw [read_open rfl rfl, Buffer.peek_one]
  rfl

/-- A write of one byte to an open buffer that is at its end. -/
theorem write_bytes (out : Array UInt8) (a : UInt8) :
    Device.write [a] (.bytes { contents := out, position := out.size })
      = (.ok (.whole 1), .bytes { contents := out.push a, position := out.size + 1 }) := by
  have hput : Buffer.putAll { contents := out, position := out.size } [a]
      = { contents := out.push a, position := out.size + 1 } :=
    Buffer.put_of_size_le (Nat.le_refl _) a
  rw [Device.write, hput]
  rfl

end Device

-- ── Rows of devices ──────────────────────────────────────────────────────────────

namespace Devices

variable {ds : Devices} {i j : Nat} {d : Device}

theorem use_of_getElem? {α : Type} (h : ds[i]? = some d) (call : Device → α × Device) :
    ds.use i call = ((call d).1, ds.setIfInBounds i (call d).2) := by
  have hd : ds.device i = d := by rw [device, h, Option.getD_some]
  rw [use_eq, hd]

theorem setIfInBounds_same (h : ds[i]? = some d) : ds.setIfInBounds i d = ds := by
  apply Array.ext_getElem?
  intro k
  by_cases hk : i = k
  · subst hk
    rw [Array.getElem?_setIfInBounds_self, h]
    obtain ⟨hi, -⟩ := Array.getElem?_eq_some_iff.mp h
    exact if_pos hi
  · exact Array.getElem?_setIfInBounds_ne hk

theorem getElem?_setIfInBounds_self (h : ds[i]? = some d) (d' : Device) :
    (ds.setIfInBounds i d')[i]? = some d' := by
  obtain ⟨hi, -⟩ := Array.getElem?_eq_some_iff.mp h
  exact Array.getElem?_setIfInBounds_self_of_lt hi

/-- A call on one stream leaves the others alone. -/
theorem getElem?_use_of_ne {α : Type} (h : i ≠ j) (call : Device → α × Device) :
    (ds.use i call).2[j]? = ds[j]? := by
  rw [use_eq]
  exact Array.getElem?_setIfInBounds_ne h

theorem device_use_of_ne {α : Type} (h : i ≠ j) (call : Device → α × Device) :
    (ds.use i call).2.device j = ds.device j := by
  rw [device, device, getElem?_use_of_ne h]

theorem size_use {α : Type} (ds : Devices) (i : Nat) (call : Device → α × Device) :
    (ds.use i call).2.size = ds.size := by
  rw [use_eq]
  exact Array.size_setIfInBounds

theorem device_use_of_lt {α : Type} (h : i < ds.size) (call : Device → α × Device) :
    (ds.use i call).2.device i = (call (ds.device i)).2 := by
  rw [use_eq, device, Array.getElem?_setIfInBounds_self_of_lt h, Option.getD_some]

/-- Where there is no stream, a call changes nothing. -/
theorem use_of_size_le {α : Type} (h : ds.size ≤ i) (call : Device → α × Device) :
    ds.use i call = ((call .vacant).1, ds) := by
  rw [use_eq, device, Array.getElem?_eq_none h]
  exact Prod.ext rfl (Array.setIfInBounds_eq_of_size_le h)

/-- What is told of a stream changes as the call changes it. Where there is no stream, nothing may
    change. -/
theorem view_use {α β : Type} (view : Device → β) (change : β → β) {call : Device → α × Device}
    (hcall : ∀ d, view (call d).2 = change (view d))
    (hvacant : ds.size ≤ i → change (view .vacant) = view .vacant) :
    view ((ds.use i call).2.device i) = change (view (ds.device i)) := by
  rcases Nat.lt_or_ge i ds.size with hlt | hge
  · rw [device_use_of_lt hlt]
    exact hcall (ds.device i)
  · rw [use_of_size_le hge, device, Array.getElem?_eq_none hge]
    exact (hvacant hge).symm

/-- What a call leaves as it is on every stream, it leaves so on all the streams of a host. -/
theorem view_use_same {α β : Type} {view : Device → β} {call : Device → α × Device}
    (hcall : ∀ d, view (call d).2 = view d) (ds : Devices) (i j : Nat) :
    view ((ds.use i call).2.device j) = view (ds.device j) := by
  by_cases hij : i = j
  · subst hij
    exact view_use view id hcall fun _ => rfl
  · rw [device_use_of_ne hij]

/-- What a call comes to depends on the stream that is called and on no other. -/
theorem use_congr {α : Type} {ds' : Devices} (h : ds[i]? = ds'[i]?) (call : Device → α × Device) :
    (ds.use i call).1 = (ds'.use i call).1 ∧ (ds.use i call).2[i]? = (ds'.use i call).2[i]? := by
  have hd : ds.device i = ds'.device i := by rw [device, device, h]
  have hsize : i < ds.size ↔ i < ds'.size := by
    rw [← isSome_getElem? ds i, ← isSome_getElem? ds' i, h]
  rw [use_eq, use_eq, hd, Array.getElem?_setIfInBounds_self, Array.getElem?_setIfInBounds_self]
  simp only [hsize, and_self]

end Devices

-- ── Handles ──────────────────────────────────────────────────────────────────────

namespace Handle

variable {h : Handle} {ds ds' : Devices} {j : Nat}

theorem getElem?_read_of_ne (hj : h.place ≠ j) (size : Value) :
    (h.read size ds).2[j]? = ds[j]? := by
  rw [read_eq]
  exact Devices.getElem?_use_of_ne hj _

theorem getElem?_write_of_ne (hj : h.place ≠ j) (bs : List UInt8) :
    (h.write bs ds).2[j]? = ds[j]? := by
  rw [write_eq]
  exact Devices.getElem?_use_of_ne hj _

theorem read_congr (hds : ds[h.place]? = ds'[h.place]?) (size : Value) :
    (h.read size ds).1 = (h.read size ds').1
      ∧ (h.read size ds).2[h.place]? = (h.read size ds').2[h.place]? := by
  rw [read_eq, read_eq]
  exact Devices.use_congr hds _

end Handle

-- ── Channels ─────────────────────────────────────────────────────────────────────

namespace Channels

variable {input output : Handle} {ds ds₀ : Devices} {w out : Array UInt8} {k : Nat}

/-- Reading through a handle over an open buffer at position `k`. -/
theorem read_ofHandles
    (h : ds[input.place]? = some (.bytes { contents := w, position := k })) :
    (ofHandles input output ds₀).read ds = (.ok (.bytes w[k]?.toList), ds.setIfInBounds input.place
      (.bytes { contents := w, position := k + w[k]?.toList.length })) := by
  show input.read (.whole 1) ds = _
  rw [Handle.read_eq, Devices.use_of_getElem? h, Device.read_bytes]

theorem write_ofHandles
    (h : ds[output.place]? = some (.bytes { contents := out, position := out.size })) (a : UInt8) :
    (ofHandles input output ds₀).write a ds = (.ok (.whole 1), ds.setIfInBounds output.place
      (.bytes { contents := out.push a, position := out.size + 1 })) := by
  show output.write [a] ds = _
  rw [Handle.write_eq, Devices.use_of_getElem? h, Device.write_bytes]

theorem flush_ofHandles
    (h : ds[output.place]? = some (.bytes { contents := w, position := k })) :
    output.flush ds = (.ok (), ds) := by
  have hd : ds.device output.place = .bytes { contents := w, position := k } := by
    rw [Devices.device, h, Option.getD_some]
  have hknown : (Device.bytes { contents := w, position := k }).hasFlush = true := rfl
  rw [Handle.flush_eq, hd, hknown, Bool.not_true, Bool.and_false, if_neg Bool.false_ne_true,
    Devices.use_of_getElem? h]
  show (_, ds.setIfInBounds output.place (.bytes { contents := w, position := k })) = _
  rw [Devices.setIfInBounds_same h]
  rfl

end Channels

end TapeMachine
