import TapeMachine.Proofs.Handle.Layers

/-!
# Streams with nothing left

A stream that has been read to its end gives nothing when it is read again, and writing to it does
not change this. What such a read leaves behind is at most a line in the record of a scripted
stream. `Device.muted` is a stream without its reads, and writing and flushing cannot tell streams
apart that are the same without them.

So a machine whose input has nothing left runs as one whose input is an empty stream
(`Channels.alike_spent`), also where its input is its output too.
-/

namespace TapeMachine

-- ── Records without their reads ──────────────────────────────────────────────────

/-- Whether a call is a read. -/
def Call.isRead : Call → Bool
  | read _ => true
  | _      => false

namespace Script

/-- A scripted stream as it shows to those who write to it: without the answers to reads, and
    without the reads that it has taken down. -/
def muted (s : Script) : Script :=
  { s with reads := [], calls := s.calls.filter fun c => !c.isRead }

variable (s : Script)

theorem muted_read (size : Value) : (s.read size).2.muted = s.muted := by
  have hcalls : (s.calls.push (.read size)).filter (fun c => !c.isRead)
      = s.calls.filter fun c => !c.isRead := by
    rw [Array.filter_push]
    rfl
  rw [read]
  rcases s.reads with _ | ⟨answer, answers⟩
  · rw [muted, muted, ← hcalls]
  · rw [muted, muted, ← hcalls]

theorem write_muted (bs : List UInt8) :
    s.muted.write bs = ((s.write bs).1, (s.write bs).2.muted) := by
  have hcalls : (s.calls.push (.write bs)).filter (fun c => !c.isRead)
      = (s.calls.filter fun c => !c.isRead).push (.write bs) := by
    rw [Array.filter_push]
    rfl
  obtain ⟨reads, writes, flushes, hasFlush, name?, calls⟩ := s
  cases writes with
  | nil => simp only [write, muted, hcalls]
  | cons answer answers => simp only [write, muted, hcalls]

theorem flush_muted : s.muted.flush = (s.flush.1, s.flush.2.muted) := by
  have hcalls : (s.calls.push .flush).filter (fun c => !c.isRead)
      = (s.calls.filter fun c => !c.isRead).push .flush := by
    rw [Array.filter_push]
    rfl
  obtain ⟨reads, writes, flushes, hasFlush, name?, calls⟩ := s
  cases flushes with
  | nil => simp only [flush, muted, hcalls]
  | cons answer answers => simp only [flush, muted, hcalls]

end Script

-- ── Streams ──────────────────────────────────────────────────────────────────────

namespace Device

variable {d : Device} {bs : List UInt8}

/-- A stream that has nothing left to give, whatever is written to it. -/
def Drained : Device → Prop
  | bytes b  => b.closed = false ∧ b.contents.size ≤ b.position
  | script s => ∀ answer ∈ s.reads, answer = .ok (.bytes [])
  | _        => False

/-- A stream of which a read to the end gives these bytes, and then there are no more. -/
def Holds (bs : List UInt8) (d : Device) : Prop :=
  (d.read (.whole (-1))).1 = .ok (.bytes bs) ∧ (d.read (.whole (-1))).2.Drained

/-- A stream as it shows to those who write to it. -/
def muted : Device → Device
  | script s => script s.muted
  | d        => d

/-- An open buffer holds its contents, if none of them was read. -/
theorem holds_bytes (bs : List UInt8) : (Device.bytes { contents := bs.toArray }).Holds bs := by
  rw [Holds, read_open rfl rfl, Buffer.peek_all]
  refine ⟨rfl, rfl, ?_⟩
  show bs.length ≤ 0 + bs.length
  exact Nat.le_of_eq (Nat.zero_add _).symm

/-- Reading a stream with nothing left gives nothing and shows in nothing but the record. -/
theorem Drained.read (h : d.Drained) :
    (d.read (.whole 1)).1 = .ok (.bytes []) ∧ (d.read (.whole 1)).2.Drained
      ∧ (d.read (.whole 1)).2.muted = d.muted := by
  cases d with
  | bytes b =>
      obtain ⟨hopen, hend⟩ := h
      rw [read_open hopen rfl, Buffer.peek_one, Array.getElem?_eq_none hend]
      exact ⟨rfl, ⟨hopen, hend⟩, rfl⟩
  | script s =>
      have hmuted : muted (script (s.read (.whole 1)).2) = muted (script s) :=
        congrArg script (s.muted_read _)
      refine ⟨?_, ?_, hmuted⟩
      · show (s.read (.whole 1)).1 = _
        rw [Script.read]
        cases hreads : s.reads with
        | nil => rfl
        | cons answer answers => exact h answer (hreads ▸ List.mem_cons_self)
      · show ∀ answer ∈ (s.read (.whole 1)).2.reads, _
        rw [Script.read]
        cases hreads : s.reads with
        | nil => exact fun _ hmem => absurd hmem List.not_mem_nil
        | cons answer answers =>
            exact fun answer' hmem => h answer' (hreads ▸ List.mem_cons_of_mem _ hmem)
  | text b => exact absurd h id
  | file e u => exact absurd h id

theorem Drained.write (h : d.Drained) (bs : List UInt8) : (d.write bs).2.Drained := by
  cases d with
  | bytes b =>
      obtain ⟨hopen, hend⟩ := h
      rw [Device.write, hopen]
      obtain ⟨hclosed, hsize⟩ := Buffer.putAll_at_end hend bs
      exact ⟨hclosed.trans hopen, hsize⟩
  | script s =>
      rw [Device.write, Script.write]
      rcases s.writes with _ | ⟨answer, answers⟩
      · exact h
      · exact h
  | text b => exact absurd h id
  | file e u => exact absurd h id

theorem Drained.flush (h : d.Drained) : d.flush.2.Drained := by
  cases d with
  | bytes b => exact h
  | script s =>
      rw [Device.flush, Script.flush]
      split
      · rcases s.flushes with _ | ⟨answer, answers⟩
        · exact h
        · exact h
      · exact h
  | text b => exact absurd h id
  | file e u => exact absurd h id

/-- A write cannot tell streams apart by their reads. -/
theorem write_muted (bs : List UInt8) (d : Device) :
    d.muted.write bs = ((d.write bs).1, (d.write bs).2.muted) := by
  cases d with
  | bytes b =>
      show (bytes b).write bs = _
      rw [Device.write]
      split
      · rfl
      · rfl
  | script s =>
      show (script s.muted).write bs = _
      rw [Device.write, s.write_muted]
      rfl
  | text b => rfl
  | file e u => rfl

/-- Nor can a flush. -/
theorem flush_muted (d : Device) : d.muted.flush = (d.flush.1, d.flush.2.muted) := by
  cases d with
  | script s =>
      show (script s.muted).flush = _
      rw [Device.flush, Device.flush, s.flush_muted]
      show (if s.hasFlush then _ else _) = _
      split
      · rfl
      · rfl
  | _ => rfl

theorem hasFlush_muted (d : Device) : d.muted.hasFlush = d.hasFlush := by
  cases d with
  | _ => rfl

end Device

-- ── Rows of streams ──────────────────────────────────────────────────────────────

namespace Devices

variable {p q n i j : Nat} {ds ds' : Devices}

/-- What a call keeps of a stream, it keeps of all the streams of a host. -/
theorem keeps_use {α : Type} {P : Device → Prop} {call : Device → α × Device}
    (hcall : ∀ d, P d → P (call d).2) (h : P (ds.device j)) : P ((ds.use i call).2.device j) := by
  by_cases hij : i = j
  · subst hij
    rcases Nat.lt_or_ge i ds.size with hlt | hge
    · rw [device_use_of_lt hlt]
      exact hcall _ h
    · rw [use_of_size_le hge]
      exact h
  · rw [device_use_of_ne hij]
    exact h

/-- Two rows of streams whose inputs have nothing left, with the inputs at one place. At all other
    places the streams are the same, and the output is the same but for its reads. -/
structure Spent (p q : Nat) (ds ds' : Devices) : Prop where
  size_eq  : ds.size = ds'.size
  others   : ∀ j, p ≠ j → ds[j]? = ds'[j]?
  output   : (ds.device q).muted = (ds'.device q).muted
  drained  : (ds.device p).Drained
  drained' : (ds'.device p).Drained

theorem Spent.symm (h : Spent p q ds ds') : Spent p q ds' ds where
  size_eq  := h.size_eq.symm
  others   := fun j hj => (h.others j hj).symm
  output   := h.output.symm
  drained  := h.drained'
  drained' := h.drained

/-- An input with nothing left may be read once more. -/
theorem Spent.read (h : Spent p q ds ds') :
    (ds.use p (Device.read (.whole 1))).1 = .ok (.bytes [])
      ∧ Spent p q (ds.use p (Device.read (.whole 1))).2 ds' := by
  have hanswer : (ds.use p (Device.read (.whole 1))).1 = .ok (.bytes []) := by
    rw [use_eq]
    exact h.drained.read.1
  have hkeeps : ((ds.use p (Device.read (.whole 1))).2.device p).Drained
      ∧ ((ds.use p (Device.read (.whole 1))).2.device p).muted = (ds.device p).muted :=
    keeps_use (P := fun d => d.Drained ∧ d.muted = (ds.device p).muted)
      (fun d hd => ⟨hd.1.read.2.1, hd.1.read.2.2.trans hd.2⟩) ⟨h.drained, rfl⟩
  have houtput : ((ds.use p (Device.read (.whole 1))).2.device q).muted = (ds.device q).muted := by
    by_cases hpq : p = q
    · exact hpq ▸ hkeeps.2
    · rw [device_use_of_ne hpq]
  exact ⟨hanswer, (size_use ..).trans h.size_eq,
    fun j hj => (getElem?_use_of_ne hj _).trans (h.others j hj), houtput.trans h.output, hkeeps.1,
    h.drained'⟩

/-- A call on the output that cannot tell streams apart by their reads comes to the same on both
    sides. -/
theorem Spent.use {α : Type} (h : Spent p q ds ds') {call : Device → α × Device}
    (hmuted : ∀ d, call d.muted = ((call d).1, (call d).2.muted))
    (hdrained : ∀ d, d.Drained → (call d).2.Drained) :
    (ds.use q call).1 = (ds'.use q call).1 ∧ Spent p q (ds.use q call).2 (ds'.use q call).2 := by
  have hanswer (ds : Devices) : (ds.use q call).1 = (call (ds.device q).muted).1 := by
    rw [use_eq, hmuted]
  have houtput : ((ds.use q call).2.device q).muted = ((ds'.use q call).2.device q).muted := by
    rcases Nat.lt_or_ge q ds.size with hlt | hge
    · have hview {ds : Devices} (hlt : q < ds.size) :
          ((ds.use q call).2.device q).muted = (call (ds.device q).muted).2 :=
        view_use Device.muted (fun d => (call d).2) (fun d => (congrArg Prod.snd (hmuted d)).symm)
          fun hge => absurd hlt (Nat.not_lt_of_le hge)
      rw [hview hlt, hview (h.size_eq ▸ hlt), h.output]
    · rw [use_of_size_le hge, use_of_size_le (h.size_eq ▸ hge)]
      exact h.output
  refine ⟨?_, ?_, ?_, houtput, keeps_use hdrained h.drained, keeps_use hdrained h.drained'⟩
  · rw [hanswer, hanswer, h.output]
  · rw [size_use, size_use]
    exact h.size_eq
  · intro j hj
    by_cases hqj : q = j
    · subst hqj
      exact (use_congr (h.others q hj) call).2
    · rw [getElem?_use_of_ne hqj, getElem?_use_of_ne hqj]
      exact h.others j hj

end Devices

-- ── Machines ─────────────────────────────────────────────────────────────────────

variable {p n : Nat} {input input' output : Handle} {ds ds' ds₀ ds₀' : Devices}

/-- Rows of streams whose inputs have nothing left, in the course of a run: their number does not
    change, nor whether the output can be flushed. -/
structure Devices.SpentSince (p q n : Nat) (ds₀ ds₀' ds ds' : Devices) : Prop
    extends Spent p q ds ds' where
  size   : ds.size = n
  ready  : (ds.device q).hasFlush = (ds₀.device q).hasFlush
  ready' : (ds'.device q).hasFlush = (ds₀'.device q).hasFlush

theorem Devices.SpentSince.symm {q : Nat} (h : SpentSince p q n ds₀ ds₀' ds ds') :
    SpentSince p q n ds₀' ds₀ ds' ds where
  toSpent := h.toSpent.symm
  size    := h.size_eq.symm.trans h.size
  ready   := h.ready'
  ready'  := h.ready

/-- An input is either the stream that was read to its end, or none of those there are. -/
theorem Devices.SpentSince.read {q : Nat} (h : SpentSince p q n ds₀ ds₀' ds ds')
    (hi : input.place = p ∨ n ≤ input.place) :
    (input.read (.whole 1) ds).1 = .ok (.bytes [])
      ∧ SpentSince p q n ds₀ ds₀' (input.read (.whole 1) ds).2 ds' := by
  have hready := (input.hasFlush_read (.whole 1) ds q).trans h.ready
  rw [Handle.read_eq] at hready ⊢
  rcases hi with rfl | hi
  · obtain ⟨hanswer, hspent⟩ := h.toSpent.read
    exact ⟨hanswer, hspent, (size_use ..).trans h.size, hready, h.ready'⟩
  · rw [use_of_size_le (h.size ▸ hi)]
    exact ⟨rfl, h⟩

/-- **Inputs that have nothing left are alike**, and so is an input that is none of the streams
    there are. -/
theorem Channels.alike_spent (hi : input.place = p ∨ n ≤ input.place)
    (hi' : input'.place = p ∨ n ≤ input'.place) :
    Alike (Devices.SpentSince p output.place n ds₀ ds₀') (ofHandles input output ds₀)
      (ofHandles input' output ds₀') where
  read := by
    intro ds ds' hs
    obtain ⟨hanswer, hs⟩ := hs.read hi
    obtain ⟨hanswer', hs⟩ := hs.symm.read hi'
    exact ⟨hanswer.trans hanswer'.symm, hs.symm⟩
  write := by
    intro b ds ds' hs
    have hready := (output.hasFlush_write [b] ds output.place).trans hs.ready
    have hready' := (output.hasFlush_write [b] ds' output.place).trans hs.ready'
    obtain ⟨hanswer, hspent⟩ := hs.toSpent.use (Device.write_muted [b]) fun d hd => hd.write [b]
    show (output.write [b] ds).1 = (output.write [b] ds').1
      ∧ Devices.SpentSince p output.place n ds₀ ds₀' (output.write [b] ds).2
        (output.write [b] ds').2
    rw [Handle.write_eq, Handle.write_eq] at *
    exact ⟨hanswer, hspent, (Devices.size_use ..).trans hs.size, hready, hready'⟩
  flush := by
    intro ip ds ds' hs
    have hknown : (ds.device output.place).hasFlush = (ds'.device output.place).hasFlush := by
      rw [← Device.hasFlush_muted, hs.output, Device.hasFlush_muted]
    have hkept (ds : Devices) := Devices.view_use_same Device.hasFlush_flush ds output.place
      output.place
    have hready := (hkept ds).trans hs.ready
    have hready' := (hkept ds').trans hs.ready'
    obtain ⟨hanswer, hspent⟩ := hs.toSpent.use Device.flush_muted fun d hd => hd.flush
    rw [Machine.flush_at_bottom hs.ready, Machine.flush_at_bottom hs.ready', ← hknown]
    split
    · rw [hanswer]
      exact ⟨rfl, hspent, (Devices.size_use ..).trans hs.size, hready, hready'⟩
    · exact ⟨rfl, hs⟩

end TapeMachine
