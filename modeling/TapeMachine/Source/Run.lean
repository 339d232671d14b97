import TapeMachine.Host
import TapeMachine.Reading

/-!
# Running a source

The whole way from the text of a program to its effects, on an engine that is made for it. The
source is cut into tokens before there is an engine, so this is reported also where no engine can be
made.
-/

namespace TapeMachine

/-- What came of running a source. -/
structure SourceRun where
  /-- The run of the engine, or why there is none. -/
  result : Except SizeError (Run Devices)
  /-- All that was reported, the cutting into tokens first. -/
  events : Array Event
  /-- The host afterwards. -/
  host   : Host

/-- Run a source on a new engine, for at most `limit` steps. -/
def Source.run (limit : Nat) (c : Configuration) (s : Source) (h : Host) : SourceRun :=
  match Engine.make c h with
  | .error e   => { result := .error e, events := #[s.scanned], host := h }
  | .ok (e, h) =>
    let e := { e with machine := e.machine.load (.ofOperations s.operations) }
    let r := e.run limit h.devices
    { result := .ok r, events := #[s.scanned] ++ r.events, host := { h with devices := r.streams } }

end TapeMachine
