import TapeMachine.Event
import TapeMachine.Handle
import TapeMachine.Source

/-!
# Reading a program

A program is read from a stream in one piece and cut into tokens. If the read itself fails, with an
operating-system error or with bytes that are no text, the program is unreadable; any other error
passes through. A stream that has nothing to give holds the empty program.
-/

namespace TapeMachine

/-- Why no program came out of a stream. -/
inductive ReadError where
  /-- The program could not be read, for the reason that the stream raised. -/
  | unreadable (cause : Raised)
  /-- An error that says nothing about the program. -/
  | passed (e : Raised)

namespace ReadError

/-- The message about an unreadable program. -/
def unreadableMessage (reason : String) : String :=
  "Cannot read program source: " ++ reason

/-- The message of a read error. -/
def message : ReadError → String
  | unreadable cause => unreadableMessage cause.text
  | passed e         => e.text

/-- What an error of the stream means for the program. -/
def ofRaised (e : Raised) : ReadError :=
  if e.kind.isSystem || e.kind.isUndecodable then unreadable e else passed e

end ReadError

namespace Source

/-- The bytes that values are, if each is a number below 256. -/
def bytesOfItems : List Value → Except Raised (List UInt8)
  | []      => .ok []
  | v :: vs =>
    match v.toInt? with
    | none   => .error (.notWhole v)
    | some n =>
      if 0 ≤ n ∧ n < 256 then (bytesOfItems vs).map (UInt8.ofInt n :: ·)
      else .error (.badValue "bytes must be in range(0, 256)")

/-- The source that a read handed over. -/
def ofChunk : Chunk → Except ReadError Source
  | .bytes bs => .ok (.bytes bs)
  | .text s   => .ok (.text s)
  | .nothing  => .ok (.bytes [])
  | .items vs =>
    match bytesOfItems vs with
    | .ok bs   => .ok (.bytes bs)
    | .error e => .error (.passed e)

/-- The source in the answer to a read. -/
def ofAnswer : Except Raised Chunk → Except ReadError Source
  | .error e => .error (.ofRaised e)
  | .ok c    => ofChunk c

/-- The event that reports that a source was cut into tokens. -/
def scanned (s : Source) : Event :=
  .scanned s.toBytes.length s.tokens.length

/-- Read a source from a stream, all of it at once. -/
def readFrom (h : Handle) (ds : Devices) : Except ReadError Source × Devices :=
  match h.read (.whole (-1)) ds with
  | (answer, ds) => (ofAnswer answer, ds)

end Source

end TapeMachine
