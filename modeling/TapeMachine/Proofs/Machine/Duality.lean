import TapeMachine.Proofs.Machine.Buffered
import TapeMachine.Proofs.Machine.Symmetry

/-!
# Dualities

Left and right are names, and so are up and down. With all moves in the other direction a program
runs as before, on the **reflected** tape; with all counting in the other direction it runs as
before on the **negated** tape, if the bytes that it reads are negated too, and then those that it
writes are.
-/

namespace TapeMachine

-- ── Buffers ──────────────────────────────────────────────────────────────────────

namespace Buffer

/-- A buffer of the same bytes with the other sign. -/
def negated (b : Buffer UInt8) : Buffer UInt8 :=
  { b with contents := b.contents.map (- ·) }

/-- The buffer after a read of one byte; a closed one stays as it is. -/
def afterRead (b : Buffer UInt8) : Buffer UInt8 :=
  if b.closed then b else b.skip b.contents[b.position]?.toList.length

theorem getElem?_negated (b : Buffer UInt8) (i : Nat) :
    b.negated.contents[i]? = b.contents[i]?.map (- ·) :=
  Array.getElem?_map

theorem afterRead_negated (b : Buffer UInt8) : b.negated.afterRead = b.afterRead.negated := by
  show (if b.closed then b.negated
    else b.negated.skip b.negated.contents[b.position]?.toList.length) = _
  rw [getElem?_negated, afterRead]
  split
  · rfl
  · cases b.contents[b.position]? with
    | none => rfl
    | some a => rfl

end Buffer

/-- A read of one byte from a buffer in any state. -/
theorem Device.read_one (b : Buffer UInt8) : Device.read (.whole 1) (.bytes b)
    = (if b.closed then .error closedError else .ok (.bytes b.contents[b.position]?.toList),
      .bytes b.afterRead) := by
  rw [Buffer.afterRead]
  split
  · next hclosed =>
      have hwanted : wanted (.whole 1) = .ok 1 := rfl
      rw [read, take, hwanted]
      dsimp only
      rw [if_pos hclosed]
      rfl
  · next hopen =>
      have hopen' : b.closed = false := by simpa using hopen
      rw [read_open hopen' rfl, Buffer.peek_one]

/-- Two rows of streams: the inputs hold the same bytes with opposite signs and stand equally far,
    and the outputs have been given the same bytes with opposite signs. -/
structure Devices.Opposite (input output : Handle) (ds ds' : Devices) : Prop where
  taken : ∃ b, ds[input.place]? = some (.bytes b) ∧ ds'[input.place]? = some (.bytes b.negated)
  given : ∃ out : Array UInt8,
    ds[output.place]? = some (.bytes { contents := out, position := out.size })
    ∧ ds'[output.place]? = some (.bytes { contents := out.map (- ·), position := out.size })

namespace Channels

variable {input output : Handle} {ds ds' ds₀ ds₀' : Devices} {b : Buffer UInt8}

theorem read_ofHandles_buffer (h : ds[input.place]? = some (.bytes b)) :
    (ofHandles input output ds₀).read ds
      = (if b.closed then .error Device.closedError
          else .ok (.bytes b.contents[b.position]?.toList),
        ds.setIfInBounds input.place (.bytes b.afterRead)) := by
  show input.read (.whole 1) ds = _
  rw [Handle.read_eq, Devices.use_of_getElem? h, Device.read_one]

/-- A cell hears the byte that its buffer is at. -/
theorem heard_ofHandles (h : ds[input.place]? = some (.bytes b)) :
    (ofHandles input output ds₀).heard ds = if b.closed then .error Device.closedError
      else .ok (b.contents[b.position]?.map .ok) := by
  rw [heard, read_ofHandles_buffer h]
  dsimp only
  split
  · rfl
  · cases b.contents[b.position]? with
    | none => rfl
    | some a =>
        show Except.ok (some (Except.ok (UInt8.ofInt a.toNat))) = _
        rw [Tape.ofInt_toNat]
        rfl

/-- **Opposite streams say the same with opposite signs.** -/
theorem renamed_opposite (hne : input.place ≠ output.place) (ds₀ ds₀' : Devices) :
    Renamed (- ·) (Devices.Opposite input output) (ofHandles input output ds₀)
      (ofHandles input output ds₀') where
  read := by
    rintro ds ds' ⟨⟨b, hb, hb'⟩, out, hout, hout'⟩
    constructor
    · have hclosed : b.negated.closed = b.closed := rfl
      have hposition : b.negated.position = b.position := rfl
      rw [heard_ofHandles hb, heard_ofHandles hb', hclosed, hposition, Buffer.getElem?_negated]
      split
      · rfl
      · cases b.contents[b.position]? with
        | none => rfl
        | some a => rfl
    · rw [read_ofHandles_buffer hb, read_ofHandles_buffer hb', Buffer.afterRead_negated]
      refine ⟨⟨b.afterRead, ?_, ?_⟩, out, ?_, ?_⟩
      · exact Devices.getElem?_setIfInBounds_self hb _
      · exact Devices.getElem?_setIfInBounds_self hb' _
      · exact (Array.getElem?_setIfInBounds_ne hne).trans hout
      · exact (Array.getElem?_setIfInBounds_ne hne).trans hout'
  write := by
    rintro a ds ds' ⟨⟨b, hb, hb'⟩, out, hout, hout'⟩
    rw [← Array.size_map (f := (- ·))] at hout'
    rw [write_ofHandles hout, write_ofHandles hout', ← Array.map_push, Array.size_map]
    refine ⟨rfl, ⟨b, ?_, ?_⟩, out.push a, ?_, ?_⟩
    · exact (Array.getElem?_setIfInBounds_ne hne.symm).trans hb
    · exact (Array.getElem?_setIfInBounds_ne hne.symm).trans hb'
    · rw [Array.size_push]
      exact Devices.getElem?_setIfInBounds_self hout _
    · rw [Array.size_push]
      exact Devices.getElem?_setIfInBounds_self hout' _
  flush := by
    rintro ip ds ds' ⟨htaken, out, hout, hout'⟩
    rw [Machine.flush_buffer hout, Machine.flush_buffer hout']
    exact ⟨rfl, htaken, out, hout, hout'⟩

end Channels

namespace Machine

variable {σ : Type} {input output : Handle}

-- ── The other direction ──────────────────────────────────────────────────────────

/-- Two machines at the same place, one on the reflected tape, with the same streams. -/
structure Mirrored (c c' : Machine × σ) : Prop where
  ip      : c'.1.ip = c.1.ip
  tape    : c.1.tape.Reflected c'.1.tape
  streams : c'.2 = c.2

/-- Two machines at the same place, one on the negated tape, with opposite streams. -/
structure Opposed (input output : Handle) (c c' : Machine × Devices) : Prop where
  ip      : c'.1.ip = c.1.ip
  tape    : c.1.tape.Negated c'.1.tape
  streams : Devices.Opposite input output c.2 c'.2

/-- Two runs that take the same course: after any number of operations the machines are related, or
    both programs have stopped; and with any limit the runs end in the same way. -/
structure SameCourse {σ τ : Type} (R : Machine × σ → Machine × τ → Prop) (ch : Channels σ)
    (ch' : Channels τ) (vm vm' : Machine) (s : σ) (s' : τ) : Prop where
  after   : ∀ n, Option.Rel R (vm.reset.after ch n s) (vm'.reset.after ch' n s')
  outcome : ∀ limit, (vm'.run ch' limit s').outcome = (vm.run ch limit s).outcome
  steps   : ∀ limit, (vm'.run ch' limit s').steps = (vm.run ch limit s).steps
  left    : ∀ limit, R ((vm.run ch limit s).machine, (vm.run ch limit s).streams)
    ((vm'.run ch' limit s').machine, (vm'.run ch' limit s').streams)

/-- Machines in lockstep that report their faults alike take the same course. -/
theorem Lockstep.sameCourse {σ τ : Type} {ch : Channels σ} {ch' : Channels τ}
    {P : Machine × σ → Prop} {R R' : Machine × σ → Machine × τ → Prop} {vm vm' : Machine} {s : σ}
    {s' : τ} (h : Lockstep ch ch' P id R') (hflush : FlushAlike ch ch' id R')
    (hstart : R' (vm.reset, s) (vm'.reset, s'))
    (hP : ∀ n c, vm.reset.after ch n s = some c → P c) (hR : ∀ {c c'}, R' c c' → R c c') :
    SameCourse R ch ch' vm vm' s s' := by
  have hrun (limit : Nat) : Run.Beside R' id 0 (vm.run ch limit s) (vm'.run ch' limit s') :=
    h.run hflush hstart fun i _ c hc => hP i c hc
  constructor
  · intro n
    exact rel_imp hR (h.after hstart fun i _ c hc => hP i c hc)
  · intro limit
    exact (hrun limit).outcome.trans (Outcome.mapFault_id _)
  · intro limit
    exact (hrun limit).steps
  · intro limit
    exact hR (hrun limit).related

/-- A program and its image under a symmetry that does not turn the ring take the same course. -/
theorem sameCourse_of_symmetry {σ τ : Type} {S : Symmetry} {Q : σ → τ → Prop}
    {R : Machine × σ → Machine × τ → Prop} {ch : Channels σ} {ch' : Channels τ} {s : σ} {s' : τ}
    (h : Channels.Renamed S.value Q ch ch') (h0 : S.shift = 0) (hs : Q s s')
    (hR : ∀ {c c'}, S.Joins Q c c' → R c c') (vm : Machine) (ops : List Operation) :
    SameCourse R ch ch' (vm.load (.ofOperations ops))
      (vm.load (.ofOperations (ops.map S.operation))) s s' :=
  (Symmetry.lockstep h).sameCourse (Symmetry.flushAlike h) (Symmetry.joins_reset h0 hs vm ops)
    (fun _ _ _ => trivial) hR

/-- **Left and right, up and down are names.** A program with all its moves in the other direction
    takes the same course on the reflected tape, between any streams; with all its counting in the
    other direction it takes the same course on the negated tape, between a buffer of negated bytes
    and one that is given negated bytes. -/
theorem directions_are_names (ops : List Operation) (vm : Machine) :
    (∀ {σ : Type} (ch : Channels σ) (s : σ),
      SameCourse Mirrored ch ch (vm.load (.ofOperations ops))
        (vm.load (.ofOperations (ops.map Operation.turned))) s s)
    ∧ ∀ (input output : Handle) (b : Buffer UInt8) (ds ds' : Devices), input.place ≠ output.place →
      ds[input.place]? = some (.bytes b) → ds'[input.place]? = some (.bytes b.negated) →
      ds[output.place]? = some (.bytes {}) → ds'[output.place]? = some (.bytes {}) →
      SameCourse (Opposed input output) (.ofHandles input output ds) (.ofHandles input output ds')
        (vm.load (.ofOperations ops)) (vm.load (.ofOperations (ops.map Operation.opposed)))
        ds ds' := by
  constructor
  · intro σ ch s
    have hren : Channels.Renamed Symmetry.reflection.value Eq ch ch :=
      Channels.renamed_self (fun _ => rfl) ch
    refine sameCourse_of_symmetry hren rfl rfl ?_ vm ops
    intro c c' hjoins
    exact ⟨hjoins.ip, .of_relates hjoins.tape, hjoins.streams.symm⟩
  · intro input output b ds ds' hne hin hin' hout hout'
    have hren : Channels.Renamed Symmetry.negation.value (Devices.Opposite input output)
        (.ofHandles input output ds) (.ofHandles input output ds') :=
      Channels.renamed_opposite hne ds ds'
    have hstreams : Devices.Opposite input output ds ds' := by
      refine ⟨⟨b, hin, hin'⟩, #[], hout, ?_⟩
      rw [Array.map_empty]
      exact hout'
    refine sameCourse_of_symmetry hren rfl hstreams ?_ vm ops
    intro c c' hjoins
    exact ⟨hjoins.ip, .of_relates hjoins.tape hjoins.onTape, hjoins.streams⟩

/-- A program that counts down from what it reads and writes the way, over a byte and over its
    negation. -/
theorem counting_the_other_way :
    let b : Buffer UInt8 := { contents := #[3] }
    let ds : Devices  := #[.bytes b, .bytes {}]
    let ds' : Devices := #[.bytes b.negated, .bytes {}]
    let ops : List Operation := [.input, .loopForward, .output, .decrement, .loopBack]
    let vm := fresh 2 Nat.two_pos false
    ((0 : Nat) ≠ 1 ∧ ds[0]? = some (.bytes b) ∧ ds'[0]? = some (.bytes b.negated)
      ∧ ds[1]? = some (.bytes {}) ∧ ds'[1]? = some (.bytes {}))
    ∧ SameCourse (Opposed (.direct 0) (.direct 1)) (.ofHandles (.direct 0) (.direct 1) ds)
        (.ofHandles (.direct 0) (.direct 1) ds') (vm.load (.ofOperations ops))
        (vm.load (.ofOperations (ops.map Operation.opposed))) ds ds' :=
  ⟨⟨by decide, rfl, rfl, rfl, rfl⟩,
    (directions_are_names _ _).2 _ _ _ _ _ (by decide) rfl rfl rfl rfl⟩

end Machine

end TapeMachine
