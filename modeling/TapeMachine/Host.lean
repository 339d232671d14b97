import TapeMachine.Handle
import TapeMachine.Machine.Run

/-!
# Hosts

What surrounds the engines: the streams, which of them are the standard ones, and the two standard
handles. A standard handle is made when it is first needed, around the stream that is standard at
that time, and is the same from then on, whatever becomes the standard stream later.

An `Engine` is a machine with the handles of its input and output; where its configuration names
none, it takes the standard handle.
-/

namespace TapeMachine

/-- The streams of a host and its standard handles. -/
structure Host where
  devices : Devices
  /-- The standard input at present. -/
  stdin   : Handle
  /-- The standard output at present. -/
  stdout  : Handle
  /-- The handle of the standard input, once it is made. -/
  input?  : Option Handle := none
  /-- The handle of the standard output, once it is made. -/
  output? : Option Handle := none

namespace Host

/-- The handle of the standard input. -/
def standardInput (h : Host) : Handle × Host :=
  match h.input? with
  | some input => (input, h)
  | none       =>
    let input := .shared (.words "<stdin>") h.stdin
    (input, { h with input? := some input })

/-- The handle of the standard output. -/
def standardOutput (h : Host) : Handle × Host :=
  match h.output? with
  | some output => (output, h)
  | none        =>
    let output := .shared (.words "<stdout>") h.stdout
    (output, { h with output? := some output })

end Host

/-- What an engine is made from. -/
structure Configuration where
  size    : Value := .whole defaultSize
  input?  : Option Handle := none
  output? : Option Handle := none
  tracing : Bool := false

/-- A machine and the handles of its streams. -/
structure Engine where
  machine : Machine
  input   : Handle
  output  : Handle

namespace Engine

/-- Make an engine. The size is looked at first, so no standard handle is made for an engine that
    cannot be. -/
def make (c : Configuration) (h : Host) : Except SizeError (Engine × Host) :=
  match Machine.ofSize c.size c.tracing with
  | .error e    => .error e
  | .ok machine =>
    let (input, h)  := match c.input? with
      | some input => (input, h)
      | none       => h.standardInput
    let (output, h) := match c.output? with
      | some output => (output, h)
      | none        => h.standardOutput
    .ok ({ machine, input, output }, h)

/-- The channels of an engine among the given streams. -/
def channels (e : Engine) (ds : Devices) : Channels Devices :=
  .ofHandles e.input e.output ds

/-- At most `n` steps of an engine. -/
def advance (n : Nat) (e : Engine) (ds : Devices) : Run Devices :=
  e.machine.advance (e.channels ds) n ds

/-- A run of the stored program, of at most `limit` steps. -/
def run (limit : Nat) (e : Engine) (ds : Devices) : Run Devices :=
  e.machine.run (e.channels ds) limit ds

end Engine

end TapeMachine
