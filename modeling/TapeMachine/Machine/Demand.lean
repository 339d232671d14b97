import TapeMachine.Machine.Run

/-!
# Demands

A machine can be run by someone who holds the streams elsewhere: ask it what the next step will
want of them, get the answer, and make the step with the answer at hand. `Machine.demand?` tells the
call before it is made, and `Channels.prepared` are channels that give answers fetched beforehand.
-/

namespace TapeMachine

/-- What a step wants of a stream. -/
inductive Demand where
  | read
  | write (b : UInt8)
  deriving DecidableEq

/-- The call that the next step makes, if it makes one. -/
def Machine.demand? (vm : Machine) : Option Demand :=
  match vm.fetch, vm.tape.current with
  | some (.operation .input), _      => some .read
  | some (.operation .output), .ok b => some (.write b)
  | _, _                             => none

/-- Answers fetched beforehand, one for each kind of call. -/
structure Prepared where
  read  : Except Raised Chunk := .ok .nothing
  write : Except Raised Value := .ok .absent
  flush : Except Raised Unit := .ok ()

/-- Channels that give the answers fetched beforehand. -/
def Channels.prepared : Channels Prepared where
  read   := fun s => (s.read, s)
  write  := fun _ s => (s.write, s)
  flush? := some fun s => (s.flush, s)

/-- The call that a machine demands is the call that its step makes: a step without a demand is the
    same whatever the channels are. -/
theorem Machine.step_of_demand?_eq_none {σ : Type} {vm : Machine} (h : vm.demand? = none)
    (channels channels' : Channels σ) (s : σ) : vm.step channels s = vm.step channels' s := by
  unfold Machine.demand? at h
  unfold Machine.step
  split
  · rfl
  · rename_i x hx
    rw [hx] at h
    split
    · rfl
    · cases x with
      | operation op =>
        cases op <;> first | rfl | skip
        · simp at h
        · cases hc : vm.tape.current with
          | ok b => simp [hc] at h
          | error e => simp [Machine.execute, Machine.giveOutput, hc]
      | _ => rfl

end TapeMachine
