import TapeMachine.Channels

/-!
# Scripted streams

A stream that answers from a list and takes down every call. It stands for any stream at all, well
behaved or not: each call gives the next answer of its kind, and when the answers have run out a
read gives nothing, a write takes everything and a flush succeeds.
-/

namespace TapeMachine

/-- The answers still to give and the calls received. -/
structure Script where
  reads    : List (Except Raised Chunk) := []
  writes   : List (Except Raised Value) := []
  flushes  : List (Except Raised Unit) := []
  /-- Whether the stream knows how to flush. -/
  hasFlush : Bool := true
  /-- The name that the stream goes by, if it has one. -/
  name?    : Option Value := none
  calls    : Array Call := #[]

namespace Script

/-- Answer a read. -/
def read (s : Script) (size : Value) : Except Raised Chunk × Script :=
  let s := { s with calls := s.calls.push (.read size) }
  match s.reads with
  | []           => (.ok (.bytes []), s)
  | answer :: as => (answer, { s with reads := as })

/-- Answer a write. -/
def write (s : Script) (bs : List UInt8) : Except Raised Value × Script :=
  let s := { s with calls := s.calls.push (.write bs) }
  match s.writes with
  | []           => (.ok (.whole bs.length), s)
  | answer :: as => (answer, { s with writes := as })

/-- Answer a flush. -/
def flush (s : Script) : Except Raised Unit × Script :=
  let s := { s with calls := s.calls.push .flush }
  match s.flushes with
  | []           => (.ok (), s)
  | answer :: as => (answer, { s with flushes := as })

end Script

end TapeMachine
