import TapeMachine.Raised.Operands

/-!
# Channels

The machine meets its two streams only through three calls: read one element, write one byte,
flush. `Channels σ` is any way to answer them, where `σ` is whatever the streams remember from call
to call. What holds for every `σ` and every `Channels σ` holds for every behaviour of the streams,
also when both are one and the same stream.

`Channels.recorded` takes down the calls as they come and answers them as before, so that the calls
of a run can be spoken about.
-/

namespace TapeMachine

/-- What a read hands over. -/
inductive Chunk where
  | bytes (bs : List UInt8)
  | text (s : String)
  | items (vs : List Value)
  | nothing

namespace Chunk

/-- The first element as a number: a byte, a code point, or what stands first in a list, if that is
    a number at all. -/
def first? : Chunk → Option (Except Raised Int)
  | bytes bs => bs.head?.map fun b => .ok b.toNat
  | text s   => s.toList.head?.map fun c => .ok c.toNat
  | items vs => vs.head?.map Raised.cellNumber
  | nothing  => none

end Chunk

/-- How an input and an output answer the machine. -/
structure Channels (σ : Type) where
  /-- Read at most one element. -/
  read   : σ → Except Raised Chunk × σ
  /-- Write one byte; the answer is what the output reports, usually how many bytes it took. -/
  write  : UInt8 → σ → Except Raised Value × σ
  /-- Pass on what has been written; an output may not know how to. -/
  flush? : Option (σ → Except Raised Unit × σ)

/-- A call that a stream received. The size of a read is what the caller gave. -/
inductive Call where
  | read (size : Value)
  | write (bs : List UInt8)
  | flush

namespace Channels

variable {σ : Type}

/-- The same answers, with every call put down behind the calls before it. -/
def recorded (ch : Channels σ) : Channels (σ × Array Call) where
  read   := fun (s, calls) =>
    match ch.read s with
    | (answer, s) => (answer, s, calls.push (.read (.whole 1)))
  write  := fun b (s, calls) =>
    match ch.write b s with
    | (answer, s) => (answer, s, calls.push (.write [b]))
  flush? := ch.flush?.map fun flush (s, calls) =>
    match flush s with
    | (answer, s) => (answer, s, calls.push .flush)

end Channels

end TapeMachine
