import TapeMachine.Machine

/-!
# Runs

Many steps at once. `Machine.advance n` makes at most `n` steps and stops early at the end of the
program or at a fault; it counts the operations that were executed. `Machine.run` is a whole run: it
starts from a zero tape, goes on to the end of the program and flushes the output there.

A program need not end, so a run is given a limit on its steps. A run that meets the limit is
`unfinished`, which is neither success nor failure, and for a program that ends every limit that
is large enough gives the same run.
-/

namespace TapeMachine

/-- How far a run got. -/
inductive Outcome where
  /-- To the end of the program. -/
  | finished
  /-- To an operation, or to the final flush, that failed. -/
  | failed (f : Fault)
  /-- To the limit on its steps. -/
  | unfinished

/-- What came of many steps. -/
structure Run (σ : Type) where
  outcome : Outcome
  machine : Machine
  streams : σ
  /-- How many operations were executed. -/
  steps   : Nat
  events  : Array Event

/-- The events so far and one more, if there is one. -/
@[inline] def Event.log (events : Array Event) : Option Event → Array Event
  | some e => events.push e
  | none   => events

namespace Machine

variable {σ : Type}

/-- At most `n` more steps, after `k` steps that left the given events. -/
def advanceFrom (channels : Channels σ) :
    (n k : Nat) → Array Event → Machine → σ → Run σ
  | 0, k, events, vm, s     => ⟨.unfinished, vm, s, k, events⟩
  | n + 1, k, events, vm, s =>
    match vm.step channels s with
    | ⟨.ok true, vm, s, e?⟩  => advanceFrom channels n (k + 1) (Event.log events e?) vm s
    | ⟨.ok false, vm, s, e?⟩ => ⟨.finished, vm, s, k, Event.log events e?⟩
    | ⟨.error f, vm, s, e?⟩  => ⟨.failed f, vm, s, k, Event.log events e?⟩

/-- At most `n` steps. -/
def advance (channels : Channels σ) (n : Nat) (vm : Machine) (s : σ) : Run σ :=
  advanceFrom channels n 0 #[] vm s

/-- Flush the output, if it knows how to. -/
def flush (channels : Channels σ) (ip : Nat) (s : σ) : Except Fault Unit × σ :=
  match channels.flush? with
  | none       => (.ok (), s)
  | some flush =>
    match flush s with
    | (.ok (), s)   => (.ok (), s)
    | (.error e, s) => (.error (.ofRaised ip e), s)

/-- The events of a run that failed: one more if the fault is an error of executing its program. -/
def abort (steps : Nat) (f : Fault) (events : Array Event) : Array Event :=
  if f.isExecution then events.push (.aborted steps f) else events

/-- What follows the last step of a run: the flush at a good end, and the closing event. -/
def conclude (channels : Channels σ) (r : Run σ) : Run σ :=
  match r.outcome with
  | .finished =>
    match flush channels r.machine.ip r.streams with
    | (.ok (), s)   => { r with streams := s, events := r.events.push (.finished r.steps) }
    | (.error f, s) =>
      { r with outcome := .failed f, streams := s, events := abort r.steps f r.events }
  | .failed f   => { r with events := abort r.steps f r.events }
  | .unfinished => r

/-- A whole run of the stored program, of at most `limit` steps. -/
def run (channels : Channels σ) (limit : Nat) (vm : Machine) (s : σ) : Run σ :=
  let vm := vm.reset
  conclude channels
    (advanceFrom channels limit 0 #[.started vm.program.size vm.tape.size] vm s)

end Machine

end TapeMachine
