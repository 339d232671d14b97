import TapeMachine.Bracket
import TapeMachine.Event
import TapeMachine.Channels

/-!
# The machine

A machine holds a program, the place of the next operation, and a tape. `Machine.step` executes one
operation against a pair of streams and tells what came of it.

* **A step is total.** It gives the machine and the streams back whether it succeeded or not, so
  what a failed operation leaves behind is part of its result. A failed step leaves the machine as
  it was; only the streams may have moved on.
* **Places come after brackets.** A loop that is skipped or repeated is continued right behind the
  partner bracket, and the partner is searched for every time.
* **An empty place ends the program**, as its end does.
-/

namespace TapeMachine

/-- A program, the place of its next operation, and the tape it works on. -/
structure Machine where
  program : Program := #[]
  ip      : Nat := 0
  tape    : Tape
  /-- Whether each step reports the state it starts from. -/
  tracing : Bool := false

/-- What came of one step: `true` if an operation was executed, `false` if there was none left. -/
structure Step (σ : Type) where
  result  : Except Fault Bool
  machine : Machine
  streams : σ
  event?  : Option Event := none

namespace Machine

variable {σ : Type}

-- ── Setting up ───────────────────────────────────────────────────────────────────

/-- A machine with an empty program and a zero tape of the size that a value asks for. -/
def ofSize (size : Value) (tracing : Bool) : Except SizeError Machine :=
  match Tape.ofSize size with
  | .ok t    => .ok { tape := t, tracing }
  | .error e => .error e

/-- A zero tape, and the program from its beginning. -/
def reset (vm : Machine) : Machine :=
  { vm with tape := vm.tape.reset, ip := 0 }

/-- Another program from its beginning, on the tape as it is. -/
def load (vm : Machine) (p : Program) : Machine :=
  { vm with program := p, ip := 0 }

-- ── One operation ────────────────────────────────────────────────────────────────

/-- The outcome of one operation: a fault or nothing, and what machine and streams are after it. -/
abbrev Effect (σ : Type) := Except Fault Unit × Machine × σ

/-- An operation that succeeded and is followed by the next one. -/
@[inline] def proceed (vm : Machine) (s : σ) : Effect σ :=
  (.ok (), { vm with ip := vm.ip + 1 }, s)

/-- An operation that failed. -/
@[inline] def fail (vm : Machine) (f : Fault) (s : σ) : Effect σ :=
  (.error f, vm, s)

/-- Change the current cell and go on. -/
@[inline] def alter (vm : Machine) (f : UInt8 → UInt8) (s : σ) : Effect σ :=
  match vm.tape.here with
  | .ok i    => proceed { vm with tape := vm.tape.set i (f (vm.tape.get i)) } s
  | .error e => vm.fail (.address e) s

/-- Read one element into the current cell, modulo 256. -/
def takeInput (channels : Channels σ) (vm : Machine) (s : σ) : Effect σ :=
  match channels.read s with
  | (.error e, s)  => vm.fail (.ofRaised vm.ip e) s
  | (.ok chunk, s) =>
    match chunk.first? with
    | none            => vm.fail (.stream vm.ip .exhausted) s
    | some (.error e) => vm.fail (.passed e) s
    | some (.ok v)    => vm.alter (fun _ => UInt8.ofInt v) s

/-- Write the current cell as one byte. Any report but zero counts as success. -/
def giveOutput (channels : Channels σ) (vm : Machine) (s : σ) : Effect σ :=
  match vm.tape.current with
  | .error e => vm.fail (.address e) s
  | .ok b    =>
    match channels.write b s with
    | (.error e, s)   => vm.fail (.ofRaised vm.ip e) s
    | (.ok report, s) =>
      if report.isZero then vm.fail (.stream vm.ip .refused) s else vm.proceed s

/-- Continue behind a bracket, or fail if there is none. -/
@[inline] def jumpBehind (vm : Machine) (bracket? : Option Nat) (f : Fault) (s : σ) : Effect σ :=
  match bracket? with
  | some i => (.ok (), { vm with ip := i + 1 }, s)
  | none   => vm.fail f s

/-- Enter a loop, or leave it out if the current cell is zero. -/
def openLoop (vm : Machine) (s : σ) : Effect σ :=
  match vm.tape.current with
  | .error e => vm.fail (.address e) s
  | .ok b    =>
    if b = 0 then vm.jumpBehind (vm.program.partnerRight vm.ip) (.unmatchedOpen vm.ip) s
    else vm.proceed s

/-- Leave a loop, or repeat it if the current cell is not zero. -/
def closeLoop (vm : Machine) (s : σ) : Effect σ :=
  match vm.tape.current with
  | .error e => vm.fail (.address e) s
  | .ok b    =>
    if b = 0 then vm.proceed s
    else vm.jumpBehind (vm.program.partnerLeft vm.ip) (.unmatchedClose vm.ip) s

/-- Execute an operation. -/
def execute (channels : Channels σ) (vm : Machine) (op : Operation) (s : σ) : Effect σ :=
  match op with
  | .increment   => vm.alter (· + 1) s
  | .decrement   => vm.alter (· - 1) s
  | .next        => proceed { vm with tape := vm.tape.moveNext } s
  | .previous    => proceed { vm with tape := vm.tape.movePrevious } s
  | .input       => vm.takeInput channels s
  | .output      => vm.giveOutput channels s
  | .loopForward => vm.openLoop s
  | .loopBack    => vm.closeLoop s

-- ── One step ─────────────────────────────────────────────────────────────────────

/-- The element to execute next; none at the end of the program and at an empty place. -/
def fetch (vm : Machine) : Option Element :=
  match vm.program[vm.ip]? with
  | some .empty => none
  | x?          => x?

/-- The name under which an element is traced. -/
def nameOf : Element → Except Fault String
  | .operation op => .ok op.name
  | .token t      => .ok t.name
  | x             => .error (.nameless x)

/-- The trace of the element that is executed next. It shows the state before the step, and there
    is none to show if the pointer is off the tape. -/
def trace (vm : Machine) (x : Element) : Except Fault Event :=
  match nameOf x, vm.tape.current, vm.tape.window with
  | .ok name, .ok cell, .ok window => .ok (.traced vm.ip name vm.tape.pointer cell window)
  | .error f, _, _                 => .error f
  | _, .error e, _                 => .error (.address e)
  | _, _, .error e                 => .error (.address e)

/-- The trace of a step, if steps are traced at all. -/
def trace? (vm : Machine) (x : Element) : Except Fault (Option Event) :=
  if vm.tracing then (vm.trace x).map some else .ok none

/-- Execute the next element, if there is one. -/
def step (channels : Channels σ) (vm : Machine) (s : σ) : Step σ :=
  match vm.fetch with
  | none   => ⟨.ok false, vm, s, none⟩
  | some x =>
    match vm.trace? x with
    | .error f   => ⟨.error f, vm, s, none⟩
    | .ok event? =>
      match x with
      | .operation op =>
        match vm.execute channels op s with
        | (.ok (), vm, s)   => ⟨.ok true, vm, s, event?⟩
        | (.error f, vm, s) => ⟨.error f, vm, s, event?⟩
      | x => ⟨.error (.foreign x), vm, s, event?⟩

end Machine

end TapeMachine
