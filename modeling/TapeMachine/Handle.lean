import TapeMachine.Arity
import TapeMachine.Device

/-!
# Handles

How an owner holds a stream: directly, or through any number of shared handles around it. A shared
handle has a name and passes every call on, so owners of different handles over one stream call
the same stream. There is one difference: a shared handle can always be flushed, and where the
stream does not know how to, nothing happens.
-/

namespace TapeMachine

/-- A stream by its place, or a named handle around another handle. -/
inductive Handle where
  | direct (place : Nat)
  | shared (name : Value) (inner : Handle)

namespace Handle

/-- The place of the stream at the bottom. -/
def place : Handle → Nat
  | direct i       => i
  | shared _ inner => inner.place

/-- Whether there is a shared handle around the stream. -/
def isShared : Handle → Bool
  | direct _   => false
  | shared _ _ => true

/-- The name that a handle goes by. -/
def name (ds : Devices) : Handle → Value
  | direct i   => (ds.device i).name
  | shared n _ => n

/-- A shared handle around another; without a name of its own it takes that of the other. -/
def share (ds : Devices) (inner : Handle) (name : Value) : Handle :=
  shared (if name.isNothing then inner.name ds else name) inner

/-- A shared handle written out. -/
def literal (ds : Devices) (h : Handle) : String :=
  "SharedStream(" ++ (h.name ds).literal ++ ")"

/-- Read through a handle. A shared one passes the call on to the one inside it. -/
def read : Handle → Value → Devices → Except Raised Chunk × Devices
  | direct i, size, ds       => ds.use i (Device.read size)
  | shared _ inner, size, ds => inner.read size ds

/-- The error of a read with more than a size. -/
def badRead (h : Handle) (given : Nat) (ds : Devices) : Raised :=
  let called (owner : String) : Raised :=
    .badKind (Arity.complaint { optional := 1 } (owner ++ ".read") given)
  if h.isShared then called "SharedStream"
  else match ds.device h.place with
    | .script _ => called "Script"
    | _         => .badKind ("read expected at most 1 argument, got " ++ toString given)

/-- Read with a row of arguments: nothing, or a size. -/
def readWith (h : Handle) (args : List Value) (ds : Devices) : Except Raised Chunk × Devices :=
  match args with
  | []     => h.read (.whole (-1)) ds
  | [size] => h.read size ds
  | args   => (.error (h.badRead args.length ds), ds)

/-- Write through a handle. A shared one passes the call on to the one inside it. -/
def write : Handle → List UInt8 → Devices → Except Raised Value × Devices
  | direct i, bs, ds       => ds.use i (Device.write bs)
  | shared _ inner, bs, ds => inner.write bs ds

/-- Whether a handle can be flushed. A shared one always can. -/
def hasFlush : Handle → Devices → Bool
  | direct i, ds  => (ds.device i).hasFlush
  | shared _ _, _ => true

/-- Flush through a handle. A shared one passes the call on if the one inside it can be flushed, and
    does nothing otherwise. -/
def flush : Handle → Devices → Except Raised Unit × Devices
  | direct i, ds       => ds.use i Device.flush
  | shared _ inner, ds => if inner.hasFlush ds then inner.flush ds else (.ok (), ds)

/-- A read gets to the stream at the bottom as it was made. -/
theorem read_eq (h : Handle) (size : Value) (ds : Devices) :
    h.read size ds = ds.use h.place (Device.read size) := by
  induction h with
  | direct i => rfl
  | shared _ inner ih => exact ih

/-- A write gets to the stream at the bottom as it was made. -/
theorem write_eq (h : Handle) (bs : List UInt8) (ds : Devices) :
    h.write bs ds = ds.use h.place (Device.write bs) := by
  induction h with
  | direct i => rfl
  | shared _ inner ih => exact ih

theorem hasFlush_eq (h : Handle) (ds : Devices) :
    h.hasFlush ds = (h.isShared || (ds.device h.place).hasFlush) := by
  cases h with
  | direct i => rfl
  | shared _ inner => rfl

/-- A flush gets to the stream at the bottom, unless a shared handle finds that this has none. -/
theorem flush_eq (h : Handle) (ds : Devices) :
    h.flush ds = if h.isShared && !(ds.device h.place).hasFlush then (.ok (), ds)
      else ds.use h.place Device.flush := by
  induction h with
  | direct i => rfl
  | shared n inner ih =>
      rw [flush, hasFlush_eq, ih]
      show _ = if !(ds.device inner.place).hasFlush then (.ok (), ds)
        else ds.use inner.place Device.flush
      cases inner.isShared with
      | false => cases (ds.device inner.place).hasFlush <;> rfl
      | true => rfl

/-- Close the stream of a handle; a shared handle cannot. -/
def close (h : Handle) (ds : Devices) : Except Raised Unit × Devices :=
  if h.isShared then (.error (.missing "SharedStream" "close"), ds)
  else ds.use h.place Device.close

end Handle

/-- The channels of a machine whose streams are held by two handles. -/
def Channels.ofHandles (input output : Handle) (ds : Devices) : Channels Devices where
  read   := input.read (.whole 1)
  write  := fun b => output.write [b]
  flush? := if output.hasFlush ds then some output.flush else none

end TapeMachine
