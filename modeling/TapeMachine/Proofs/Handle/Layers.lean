import TapeMachine.Host
import TapeMachine.Proofs.Device.Buffer
import TapeMachine.Proofs.Machine.Likeness
import TapeMachine.Reading

/-!
# Layers of shared handles

A shared handle passes every call on to the handle inside it, through as many layers as there are
(`read_wrap`, `write_wrap`). Only in one place is it not what it stands for: it can always be
flushed, where a stream may not know how to, and asks the handle inside it no sooner than then. This
would show if a stream lost or gained its flush while it is in use. But **no call changes whether a
stream can be flushed** (`Device.hasFlush_write` and the lemmas beside it), so the flush at the end
of a run comes to the same with any layers and without (`flush_at_bottom`).
-/

namespace TapeMachine

-- ── Whether a stream can be flushed ──────────────────────────────────────────────

namespace Device

/-- A read neither gives a stream its flush nor takes it away. -/
theorem hasFlush_read (size : Value) (d : Device) : (d.read size).2.hasFlush = d.hasFlush := by
  cases d with
  | script s =>
      rw [read, Script.read]
      rcases s.reads with _ | ⟨answer, answers⟩
      · rfl
      · rfl
  | _ => rfl

/-- Nor does a write. -/
theorem hasFlush_write (bs : List UInt8) (d : Device) : (d.write bs).2.hasFlush = d.hasFlush := by
  cases d with
  | bytes b =>
      rw [write]
      split
      · rfl
      · rfl
  | script s =>
      rw [write, Script.write]
      rcases s.writes with _ | ⟨answer, answers⟩
      · rfl
      · rfl
  | _ => rfl

/-- Nor does a flush. -/
theorem hasFlush_flush (d : Device) : d.flush.2.hasFlush = d.hasFlush := by
  cases d with
  | script s =>
      rw [flush, Script.flush]
      split
      · rcases s.flushes with _ | ⟨answer, answers⟩
        · rfl
        · rfl
      · rfl
  | _ => rfl

end Device

-- ── Handles ──────────────────────────────────────────────────────────────────────

namespace Handle

variable {input output : Handle} {ds ds₀ : Devices}

/-- A handle inside any number of shared handles, given by their names, the outermost first. -/
def wrap (h : Handle) (names : List Value) : Handle :=
  names.foldr shared h

/-- A handle stands for the same stream under any layers. -/
@[simp] theorem place_wrap (h : Handle) (names : List Value) : (h.wrap names).place = h.place := by
  induction names with
  | nil => rfl
  | cons n names ih => exact ih

/-- A read goes through all layers to the handle inside. -/
theorem read_wrap (h : Handle) (names : List Value) : (h.wrap names).read = h.read := by
  induction names with
  | nil => rfl
  | cons n names ih => exact ih

/-- So does a write. -/
theorem write_wrap (h : Handle) (names : List Value) : (h.wrap names).write = h.write := by
  induction names with
  | nil => rfl
  | cons n names ih => exact ih

/-- No read of one stream changes whether another can be flushed. -/
theorem hasFlush_read (h : Handle) (size : Value) (ds : Devices) (p : Nat) :
    ((h.read size ds).2.device p).hasFlush = (ds.device p).hasFlush := by
  rw [read_eq]
  exact Devices.view_use_same (Device.hasFlush_read size) ..

/-- No write to one stream changes whether another can be flushed. -/
theorem hasFlush_write (h : Handle) (bs : List UInt8) (ds : Devices) (p : Nat) :
    ((h.write bs ds).2.device p).hasFlush = (ds.device p).hasFlush := by
  rw [write_eq]
  exact Devices.view_use_same (Device.hasFlush_write bs) ..

end Handle

-- ── Runs ─────────────────────────────────────────────────────────────────────────

variable {input output : Handle} {ds ds₀ : Devices} {p : Nat}

/-- Where there is no flush, nothing is called and nothing fails. -/
theorem Machine.flush_of_none {σ : Type} {ch : Channels σ} (h : ch.flush? = none) (ip : Nat)
    (s : σ) : Machine.flush ch ip s = (.ok (), s) := by
  rw [Machine.flush, h]

/-- A flush fails with what its answer becomes, and leaves the streams as the call does. -/
theorem Machine.flush_of_some {σ : Type} {ch : Channels σ} {flush : σ → Except Raised Unit × σ}
    (h : ch.flush? = some flush) (ip : Nat) (s : σ) :
    Machine.flush ch ip s = ((flush s).1.mapError (.ofRaised ip), (flush s).2) := by
  rw [Machine.flush, h]
  dsimp only
  rcases flush s with ⟨e | _, s'⟩
  · rfl
  · rfl

/-- The flush at the end of a run is that of the stream at the bottom, if this can be flushed then
    as it could be at the start. -/
theorem Machine.flush_at_bottom
    (h : (ds.device output.place).hasFlush = (ds₀.device output.place).hasFlush) (ip : Nat) :
    Machine.flush (.ofHandles input output ds₀) ip ds
      = if (ds.device output.place).hasFlush then
          ((ds.use output.place Device.flush).1.mapError (.ofRaised ip),
            (ds.use output.place Device.flush).2)
        else (.ok (), ds) := by
  have hknown : (Channels.ofHandles input output ds₀).flush?
      = if output.isShared || (ds.device output.place).hasFlush then some output.flush
        else none := by
    rw [h, ← Handle.hasFlush_eq]
    rfl
  have hflush := output.flush_eq ds
  cases hready : (ds.device output.place).hasFlush with
  | true =>
      rw [hready, Bool.or_true, if_pos rfl] at hknown
      rw [hready, Bool.not_true, Bool.and_false, if_neg Bool.false_ne_true] at hflush
      rw [flush_of_some hknown, hflush, if_pos rfl]
  | false =>
      rw [hready, Bool.or_false] at hknown
      rw [hready, Bool.not_false, Bool.and_true] at hflush
      cases hshared : output.isShared with
      | true =>
          rw [hshared, if_pos rfl] at hknown hflush
          rw [flush_of_some hknown, hflush]
          rfl
      | false =>
          rw [hshared, if_neg Bool.false_ne_true] at hknown
          rw [flush_of_none hknown]
          rfl

/-- Streams that are the same, and that can be flushed if they could be at the start. -/
def AsReady (p : Nat) (ds₀ ds ds' : Devices) : Prop :=
  ds = ds' ∧ (ds.device p).hasFlush = (ds₀.device p).hasFlush

/-- Channels through any layers answer as those without. -/
theorem Channels.alike_wrap (input output : Handle) (names names' : List Value) (ds₀ : Devices) :
    Alike (AsReady output.place ds₀)
      (ofHandles (input.wrap names) (output.wrap names') ds₀) (ofHandles input output ds₀) where
  read := by
    rintro ds _ ⟨rfl, hready⟩
    show ((input.wrap names).read (.whole 1) ds).1 = (input.read (.whole 1) ds).1
      ∧ AsReady output.place ds₀ ((input.wrap names).read (.whole 1) ds).2
        (input.read (.whole 1) ds).2
    rw [Handle.read_wrap]
    exact ⟨rfl, rfl, (Handle.hasFlush_read ..).trans hready⟩
  write := by
    rintro b ds _ ⟨rfl, hready⟩
    show ((output.wrap names').write [b] ds).1 = (output.write [b] ds).1
      ∧ AsReady output.place ds₀ ((output.wrap names').write [b] ds).2
        (output.write [b] ds).2
    rw [Handle.write_wrap]
    exact ⟨rfl, rfl, (Handle.hasFlush_write ..).trans hready⟩
  flush := by
    rintro ip ds _ ⟨rfl, hready⟩
    have hwrap : (ds.device (output.wrap names').place).hasFlush
        = (ds₀.device (output.wrap names').place).hasFlush := by
      rw [Handle.place_wrap]
      exact hready
    rw [Machine.flush_at_bottom hwrap, Machine.flush_at_bottom hready, Handle.place_wrap]
    refine ⟨rfl, rfl, ?_⟩
    split
    · exact (Devices.view_use_same Device.hasFlush_flush ..).trans hready
    · exact hready

/-- **With any layers around its input and its output an engine makes the same run.** -/
theorem Engine.run_wrap (vm : Machine) (input output : Handle) (names names' : List Value)
    (limit : Nat) (ds : Devices) :
    (Engine.mk vm (input.wrap names) (output.wrap names')).run limit ds
      = (Engine.mk vm input output).run limit ds :=
  ((Channels.alike_wrap input output names names' ds).run ⟨rfl, rfl⟩ limit vm).eq And.left

-- ── Sources ──────────────────────────────────────────────────────────────────────

/-- The sources that so many reads hand over, one read after the other, and the streams after the
    last one. -/
def Source.readTimes (h : Handle) : Nat → Devices → List (Except ReadError Source) × Devices
  | 0, ds     => ([], ds)
  | n + 1, ds =>
    let (source, ds)  := readFrom h ds
    let (sources, ds) := readTimes h n ds
    (source :: sources, ds)

/-- A program read several times over is read the same through any layers. -/
theorem Source.readTimes_wrap (h : Handle) (names : List Value) (n : Nat) (ds : Devices) :
    readTimes (h.wrap names) n ds = readTimes h n ds := by
  have hread (ds : Devices) : readFrom (h.wrap names) ds = readFrom h ds := by
    rw [readFrom, readFrom, Handle.read_wrap]
  induction n generalizing ds with
  | zero => rfl
  | succ n ih =>
      rw [readTimes, readTimes, hread]
      dsimp only
      rw [ih]

/-- **Shared handles are transparent**: with any layers around its input and its output an engine
    makes the same run as without, and leaves the same streams, each with the calls that it has
    taken down. The calls are made in the same order, also where both handles are of one stream.
    Programs that are read through any layers are the same too. -/
theorem shared_handles_are_transparent (input output : Handle) (names names' : List Value) :
    (∀ (vm : Machine) (limit : Nat) (ds : Devices),
      let plain : Engine := ⟨vm, input, output⟩
      let wrapped : Engine := ⟨vm, input.wrap names, output.wrap names'⟩
      wrapped.run limit ds = plain.run limit ds
        ∧ vm.reset.demands (wrapped.channels ds) limit ds
          = vm.reset.demands (plain.channels ds) limit ds)
    ∧ ∀ (n : Nat) (ds : Devices),
      Source.readTimes (input.wrap names) n ds = Source.readTimes input n ds := by
  constructor
  · intro vm limit ds plain wrapped
    have halike : Channels.Alike (AsReady output.place ds) (wrapped.channels ds)
        (plain.channels ds) := Channels.alike_wrap input output names names' ds
    constructor
    · exact Engine.run_wrap ..
    · rw [Machine.demands, Machine.demands, halike.trail ⟨rfl, rfl⟩]
  · intro n ds
    exact Source.readTimes_wrap input names n ds

end TapeMachine
