import Mathlib.Logic.Function.Basic
import TapeMachine.Host
import TapeMachine.Machine.Demand

/-!
# Crews

Any number of engines that take turns on the streams of one host. A turn is one step of one engine;
the turns may come in any order, and an engine that is at its end, or whose step failed, may be
given more of them.

`Crew.log` tells what the executed operations moved between engines and streams: each byte, which
way it went, and which engine it was.
-/

namespace TapeMachine

/-- A byte that an executed operation moves. -/
inductive Transfer where
  /-- From the input into the current cell. -/
  | taken (b : UInt8)
  /-- From the current cell to the output. -/
  | given (b : UInt8)
  deriving DecidableEq

namespace Transfer

/-- The byte that was taken. -/
def taken? : Transfer → Option UInt8
  | taken b => some b
  | given _ => none

/-- The byte that was given. -/
def given? : Transfer → Option UInt8
  | taken _ => none
  | given b => some b

end Transfer

/-- What an executed operation moved, told from the machine before it and the one after it. -/
def Machine.transfer? (before after : Machine) : Option Transfer :=
  match before.demand?, after.tape.current with
  | some .read, .ok b  => some (.taken b)
  | some (.write b), _ => some (.given b)
  | _, _               => none

/-- Engines, and the streams that they have between them. -/
structure Crew (ι : Type) where
  engines : ι → Engine
  devices : Devices

namespace Crew

variable {ι : Type} [DecidableEq ι]

/-- What comes of a turn of an engine. -/
def turn (c : Crew ι) (i : ι) : Step Devices :=
  (c.engines i).machine.step ((c.engines i).channels c.devices) c.devices

/-- The crew after a turn of an engine, whatever came of it. -/
def step (c : Crew ι) (i : ι) : Crew ι where
  engines := Function.update c.engines i { c.engines i with machine := (c.turn i).machine }
  devices := (c.turn i).streams

/-- The crew after some turns, one after the other. -/
def steps (c : Crew ι) (turns : List ι) : Crew ι :=
  turns.foldl step c

/-- What a turn of an engine moves, if it executes an operation that moves a byte. -/
def moved? (c : Crew ι) (i : ι) : Option Transfer :=
  match (c.turn i).result with
  | .ok true => (c.engines i).machine.transfer? (c.turn i).machine
  | _        => none

/-- All that turns move, each byte with the engine that moved it. -/
def log (c : Crew ι) : List ι → List (ι × Transfer)
  | []         => []
  | i :: turns => (c.moved? i).toList.map (i, ·) ++ (c.step i).log turns

/-- The bytes that were taken, in their order. -/
def takenIn (log : List (ι × Transfer)) : List UInt8 :=
  log.filterMap fun entry => entry.2.taken?

/-- The bytes that were given, in their order. -/
def givenIn (log : List (ι × Transfer)) : List UInt8 :=
  log.filterMap fun entry => entry.2.given?

/-- The part of a log that is one engine's. -/
def ownIn (i : ι) (log : List (ι × Transfer)) : List (ι × Transfer) :=
  log.filter fun entry => entry.1 = i

/-- The crew after so many turns of one engine, with no turn of another. -/
def alone (c : Crew ι) (i : ι) (k : Nat) : Crew ι :=
  c.steps (List.replicate k i)

end Crew

end TapeMachine
