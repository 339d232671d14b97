import TapeMachine.Proofs.CommandLine.Invocation
import TapeMachine.Proofs.Device.Drained
import TapeMachine.Proofs.Machine.Starved

/-!
# Programs on the standard input

Without a path the command line takes its program from the standard input, to the last byte, and
then runs it on this same stream. Nothing is left there for the program to read: `LeavesNothing`
says that the call is **the run of the program with no input at all**, on a host where no stream is
the input (`Host.withoutInput`). So it ends at the first `input` that it comes to, and the comments
in the program, which are bytes of the standard input as well, do not show.
-/

namespace TapeMachine

namespace Host

variable {h : Host} {bs : List UInt8} {limit : Nat}

/-- The host after its standard input was read to the end. -/
def readOut (h : Host) : Host :=
  { h with devices := (h.stdin.read (.whole (-1)) h.devices).2 }

/-- The host with nothing on its standard input: there is no stream at this place, so reading from
    it gives nothing. -/
def withoutInput (h : Host) : Host :=
  { h with stdin := .direct h.devices.size }

/-- The run of a source without any input, after the standard input was read to the end. -/
def starvedRun (h : Host) (limit : Nat) (s : Source) : Run Devices :=
  (h.readOut.withoutInput.engine s.operations).run limit h.readOut.devices

/-- The machines that this run passes through. -/
def starvedTrail (h : Host) (limit : Nat) (s : Source) : List Machine :=
  let engine := h.readOut.withoutInput.engine s.operations
  engine.machine.reset.trail (engine.channels h.readOut.devices) limit h.readOut.devices

theorem drained_readOut (hb : (h.devices.device h.stdin.place).Holds bs) :
    (h.readOut.devices.device h.stdin.place).Drained := by
  have hread : h.readOut.devices
      = (h.devices.use h.stdin.place (Device.read (.whole (-1)))).2 := by
    rw [readOut, Handle.read_eq]
  rw [hread]
  rcases Nat.lt_or_ge h.stdin.place h.devices.size with hlt | hge
  · rw [Devices.device_use_of_lt hlt]
    exact hb.2
  · rw [Devices.use_of_size_le hge, Devices.device, Array.getElem?_eq_none hge]
    exact ⟨rfl, Nat.le_refl 0⟩

/-- What the streams of two hosts have in common in runs that follow the reading of their standard
    inputs. -/
def SpentWith (h h' : Host) : Devices → Devices → Prop :=
  Devices.SpentSince h.stdin.place h.stdout.place h.readOut.devices.size h.readOut.devices
    h'.readOut.devices

theorem spentWith_self (hb : (h.devices.device h.stdin.place).Holds bs) :
    h.SpentWith h h.readOut.devices h.readOut.devices where
  size_eq  := rfl
  others   := fun _ _ => rfl
  output   := rfl
  drained  := drained_readOut hb
  drained' := drained_readOut hb
  size     := rfl
  ready    := rfl
  ready'   := rfl

/-- It makes no difference to these runs whether they read from the standard input or from no stream
    at all. -/
theorem alike_readOut (h h' : Host) {input input' : Handle}
    (hi : input.place = h.stdin.place ∨ h.readOut.devices.size ≤ input.place)
    (hi' : input'.place = h.stdin.place ∨ h.readOut.devices.size ≤ input'.place) :
    Channels.Alike (h.SpentWith h') (.ofHandles input h.stdout h.readOut.devices)
      (.ofHandles input' h.stdout h'.readOut.devices) :=
  Channels.alike_spent hi hi'

/-- At every point of a run without input the input has nothing to give. -/
theorem starved_readOut (hb : (h.devices.device h.stdin.place).Holds bs) (s : Source) :
    let engine := h.readOut.withoutInput.engine s.operations
    engine.machine.reset.Starved (engine.channels h.readOut.devices) h.readOut.devices := by
  intro engine i vm' s' ha
  have hnowhere : h.readOut.devices.size ≤ engine.input.place := Nat.le_refl _
  obtain ⟨s'', -, hspent⟩ :=
    (alike_readOut h h (Or.inr hnowhere) (Or.inr hnowhere)).after (spentWith_self hb) ha
  exact (hspent.read (Or.inr hnowhere)).1

/-- The host with another stream for its standard input. -/
def withInput (h : Host) (d : Device) : Host :=
  { h with devices := h.devices.setIfInBounds h.stdin.place d }

/-- Once they are read to their ends, it makes no difference which stream is the standard input. -/
theorem spentWith_withInput {d : Device} {bs' : List UInt8} (hne : h.stdin.place ≠ h.stdout.place)
    (hb : (h.devices.device h.stdin.place).Holds bs)
    (hb' : ((h.withInput d).devices.device h.stdin.place).Holds bs') :
    h.SpentWith (h.withInput d) h.readOut.devices (h.withInput d).readOut.devices := by
  have hsize : h.readOut.devices.size = (h.withInput d).readOut.devices.size := by
    show (h.stdin.read _ h.devices).2.size = (h.stdin.read _ (h.withInput d).devices).2.size
    rw [Handle.read_eq, Handle.read_eq, Devices.size_use, Devices.size_use]
    exact Array.size_setIfInBounds.symm
  have hothers (j : Nat) (hj : h.stdin.place ≠ j) :
      h.readOut.devices[j]? = (h.withInput d).readOut.devices[j]? := by
    show (h.stdin.read _ h.devices).2[j]? = (h.stdin.read _ (h.withInput d).devices).2[j]?
    rw [Handle.getElem?_read_of_ne hj, Handle.getElem?_read_of_ne hj]
    exact (Array.getElem?_setIfInBounds_ne hj).symm
  have houtput : h.readOut.devices.device h.stdout.place
      = (h.withInput d).readOut.devices.device h.stdout.place := by
    rw [Devices.device, Devices.device, hothers _ hne]
  exact ⟨⟨hsize, hothers, congrArg Device.muted houtput, drained_readOut hb, drained_readOut hb'⟩,
    rfl, rfl, rfl⟩

end Host

-- ── Calls without a path ─────────────────────────────────────────────────────────

namespace CommandLine

variable {h : Host} {bs : List UInt8}

/-- What a call without a path does with the bytes of its standard input. -/
structure LeavesNothing (limit : Nat) (files : Files) (bs : List UInt8) (h : Host)
    (call : Invocation) : Prop where
  /-- It ends as the run of the program without any input. -/
  exit_eq    : call.exit = (Ending.ofRun (h.starvedRun limit (.bytes bs))).exit
  /-- It reports that a program was read, and what this run reports. -/
  events_eq  : call.events = #[(Source.bytes bs).scanned]
    ++ (Ending.ofRun (h.starvedRun limit (.bytes bs))).events
  /-- It leaves all the streams as this run does, but for the standard input. -/
  streams    : ∀ j, h.stdin.place ≠ j →
    call.host.devices[j]? = (h.starvedRun limit (.bytes bs)).streams[j]?
  /-- It leaves the standard output as this run does, also if it is the standard input too: then up
      to the reads. -/
  output     : (call.host.devices.device h.stdout.place).muted
    = ((h.starvedRun limit (.bytes bs)).streams.device h.stdout.place).muted
  /-- An `input` that the run comes to ends it, and the call with it. -/
  ends       : ∀ vm ∈ h.starvedTrail limit (.bytes bs), vm.fetch = some (.operation .input) →
    (h.starvedRun limit (.bytes bs)).outcome = .failed (.stream vm.ip .exhausted)
      ∧ call.exit = .status 1
      ∧ call.errors = ["Program execution failed: " ++ (Fault.stream vm.ip .exhausted).message]
  /-- Nothing else ends it for want of input, and it is the first `input` that it comes to. -/
  only       : ∀ ip, (h.starvedRun limit (.bytes bs)).outcome = .failed (.stream ip .exhausted) →
    ∃ past vm, h.starvedTrail limit (.bytes bs) = past ++ [vm]
      ∧ (∀ vm' ∈ past, vm'.fetch ≠ some (.operation .input))
      ∧ vm.fetch = some (.operation .input) ∧ vm.ip = ip
  /-- With other comments in the program the call is the same, but for their number. Only the
      standard output must be another stream than the one with the comments. -/
  comments   : ∀ d bs', h.stdin.place ≠ h.stdout.place →
    ((h.withInput d).devices.device h.stdin.place).Holds bs' →
      (Source.bytes bs').tokens = (Source.bytes bs).tokens →
      let call' := invoke limit files [] (h.withInput d)
      call'.exit = call.exit ∧ call'.errors = call.errors
        ∧ call'.events.toList.tail = call.events.toList.tail
        ∧ ∀ j, h.stdin.place ≠ j → call'.host.devices[j]? = call.host.devices[j]?

variable {limit : Nat} {files : Files}

theorem invoke_of_holds (hb : (h.devices.device h.stdin.place).Holds bs) :
    invoke limit files [] h = runSource limit (.ok (.bytes bs)) h.readOut := by
  have hanswer : (h.stdin.read (.whole (-1)) h.devices).1 = .ok (.bytes bs) := by
    rw [Handle.read_eq, Devices.use_eq]
    exact hb.1
  rw [invoke_nil, hanswer]
  rfl

/-- A call without a path ends as the run of its program without any input. -/
theorem invoke_starved (hinput : h.input? = none) (houtput : h.output? = none)
    (hb : (h.devices.device h.stdin.place).Holds bs) (limit : Nat) (files : Files) :
    let r := h.starvedRun limit (.bytes bs)
    let call := invoke limit files [] h
    call.exit = (Ending.ofRun r).exit
      ∧ call.events = #[(Source.bytes bs).scanned] ++ (Ending.ofRun r).events
      ∧ h.SpentWith h call.host.devices r.streams := by
  intro r call
  have hnowhere : h.readOut.devices.size ≤ h.readOut.withoutInput.stdin.place := Nat.le_refl _
  have hlike : Run.Like (h.SpentWith h)
      ((h.readOut.engine (Source.bytes bs).operations).run limit h.readOut.devices) r :=
    (Host.alike_readOut h h (Or.inl rfl) (Or.inr hnowhere)).run (Host.spentWith_self hb) limit _
  obtain ⟨hexit, hevents, hstreams⟩ :=
    runSource_ok (h := h.readOut) hinput houtput limit (.bytes bs)
  have hcall : call = _ := invoke_of_holds hb
  rw [← hcall] at hexit hevents hstreams
  rw [← ofRun_congr hlike.outcome hlike.events]
  refine ⟨hexit, hevents, ?_⟩
  rw [hstreams]
  exact hlike.streams

/-- Runs without any input of programs that differ in their comments, after these were read. -/
theorem starvedRun_withInput {d : Device} {bs' : List UInt8}
    (hne : h.stdin.place ≠ h.stdout.place) (hb : (h.devices.device h.stdin.place).Holds bs)
    (hb' : ((h.withInput d).devices.device h.stdin.place).Holds bs')
    (htokens : (Source.bytes bs').tokens = (Source.bytes bs).tokens) (limit : Nat) :
    Run.Like (h.SpentWith (h.withInput d)) (h.starvedRun limit (.bytes bs))
      ((h.withInput d).starvedRun limit (.bytes bs')) := by
  have hspent := Host.spentWith_withInput hne hb hb'
  have hops : (Source.bytes bs').operations = (Source.bytes bs).operations :=
    congrArg Operation.ofTokens htokens
  have hi : h.readOut.devices.size ≤ h.readOut.withoutInput.stdin.place := Nat.le_refl _
  have hi' : h.readOut.devices.size ≤ (h.withInput d).readOut.withoutInput.stdin.place :=
    Nat.le_of_eq hspent.size_eq
  rw [Host.starvedRun, Host.starvedRun, hops]
  exact (Host.alike_readOut h (h.withInput d) (Or.inr hi) (Or.inr hi')).run hspent limit _

/-- **A program on the standard input finds nothing to read there.** -/
theorem standard_input_leaves_nothing (hinput : h.input? = none) (houtput : h.output? = none)
    (hb : (h.devices.device h.stdin.place).Holds bs) (limit : Nat) (files : Files) :
    LeavesNothing limit files bs h (invoke limit files [] h) := by
  obtain ⟨hexit, hevents, hspent⟩ := invoke_starved hinput houtput hb limit files
  have hstarved := Host.starved_readOut hb (.bytes bs)
  have hsound : (h.readOut.withoutInput.engine (Source.bytes bs).operations).machine.Sound
      defaultSize := (Machine.sound_fresh defaultSize_pos false).load _
  refine ⟨hexit, hevents, hspent.others, hspent.output, ?_, ?_, ?_⟩
  · intro vm hmem hf
    have hfailed : (h.starvedRun limit (.bytes bs)).outcome = .failed (.stream vm.ip .exhausted) :=
      Machine.outcome_of_input hsound.reset.onTape hstarved hmem hf
    refine ⟨hfailed, ?_⟩
    have htells := tells_ofRun (r := h.starvedRun limit (.bytes bs))
      fun e => Machine.reporter_of_mem_events
    rw [hfailed] at htells
    rw [errors_of_scanned hevents, hexit]
    exact htells
  · intro ip hfailed
    exact hsound.input_of_exhausted hstarved hfailed
  · intro d bs' hne hb' htokens call'
    obtain ⟨hexit', hevents', hspent'⟩ :=
      invoke_starved (h := h.withInput d) hinput houtput hb' limit files
    have hlike := starvedRun_withInput hne hb hb' htokens limit
    have hending := ofRun_congr hlike.outcome hlike.events
    have htail (s : Source) (events : Array Event) :
        (#[s.scanned] ++ events).toList.tail = events.toList := by
      rw [Array.toList_append]
      rfl
    refine ⟨?_, ?_, ?_, ?_⟩
    · rw [hexit, hexit', hending]
    · rw [errors_of_scanned hevents, errors_of_scanned hevents', hending]
    · rw [hevents, hevents', hending, htail, htail]
    · intro j hj
      calc call'.host.devices[j]?
          = ((h.withInput d).starvedRun limit (.bytes bs')).streams[j]? := hspent'.others j hj
        _ = (h.starvedRun limit (.bytes bs)).streams[j]? := (hlike.streams.others j hj).symm
        _ = (invoke limit files [] h).host.devices[j]? := (hspent.others j hj).symm

/-- A program of one `input`, with a comment in front of it and one behind it. The comment behind
    it is not what is read. -/
theorem standard_input_leaves_no_comment :
    let bs : List UInt8 := [120, 44, 121]
    let h : Host :=
      { devices := #[.bytes { contents := bs.toArray }, .script {}]
        stdin   := .direct 0
        stdout  := .direct 1 }
    let call := invoke 9 (Directory.open? {}) [] h
    h.input? = none ∧ h.output? = none ∧ (h.devices.device h.stdin.place).Holds bs
      ∧ call.exit = .status 1
      ∧ call.errors = ["Program execution failed: I/O failure at operation 0: "
          ++ "UnexpectedEof (input stream exhausted)"] := by
  intro bs h call
  have hb : (h.devices.device h.stdin.place).Holds bs := Device.holds_bytes bs
  have hleaves : LeavesNothing 9 (Directory.open? {}) bs h call :=
    standard_input_leaves_nothing rfl rfl hb 9 (Directory.open? {})
  let vm := (h.readOut.withoutInput.engine (Source.bytes bs).operations).machine.reset
  have hmem : vm ∈ h.starvedTrail 9 (.bytes bs) := List.mem_cons_self
  have hf : vm.fetch = some (.operation .input) := rfl
  obtain ⟨-, hexit, herrors⟩ := hleaves.ends vm hmem hf
  have htext : "Program execution failed: " ++ (Fault.stream 0 .exhausted).message
      = "Program execution failed: I/O failure at operation 0: "
        ++ "UnexpectedEof (input stream exhausted)" := by decide
  rw [← htext]
  exact ⟨rfl, rfl, hb, hexit, herrors⟩

end CommandLine

end TapeMachine
