import TapeMachine.Device.Buffer
import TapeMachine.Device.Script
import TapeMachine.Text.Decoding

/-!
# Devices

The streams that there are: a buffer of bytes, a buffer of characters, a text file that is decoded
when it is read, and a scripted stream. All streams of a host stand in one row, `Devices`, and
are known by their place in it, so that two owners of one stream see each other's calls.
-/

namespace TapeMachine

/-- A stream with what it remembers. -/
inductive Device where
  | bytes (b : Buffer UInt8)
  | text (b : Buffer Char)
  | file (encoding : Text.Encoding) (unread : List UInt8)
  | script (s : Script)

namespace Device

/-- A stream with nothing in it. -/
def vacant : Device :=
  .bytes {}

/-- The error of a call on a closed stream. -/
def closedError : Raised :=
  .badValue "I/O operation on closed file."

/-- The number of items that a size asks a buffer for; without a size, and below zero, all of them.
    A size that is no whole number asks for nothing that can be counted. -/
def wanted : Value → Except Raised Int
  | .absent => .ok (-1)
  | size    =>
    match size.toInt? with
    | some n => if fitsWord n then .ok n else .error (.named "OverflowError" misfitText)
    | none   =>
      .error (.named "TypeError"
        ("argument should be integer or None, not '" ++ size.kind ++ "'"))

/-- The items that a read of a buffer hands over, and the buffer after it. The size is looked at
    before the buffer is. -/
def take {α : Type} (b : Buffer α) (size : Value) (closed : Raised) :
    Except Raised (List α) × Buffer α :=
  match wanted size with
  | .error e => (.error e, b)
  | .ok n    =>
    if b.closed then (.error closed, b)
    else
      let got := b.peek n
      (.ok got, b.skip got.length)

/-- The text of a file, with every line end a line feed. -/
def fileText (encoding : Text.Encoding) (bs : List UInt8) : Except Raised Chunk :=
  match Text.decode encoding bs with
  | .ok cs   => .ok (.text (String.ofList (Text.unifyLineEnds cs)))
  | .error e => .error { kind := .undecodable, args := [.words e.message] }

/-- Read as many items as a size asks for. A text file is always read to its end. -/
def read (size : Value) : Device → Except Raised Chunk × Device
  | bytes b =>
    match take b size closedError with
    | (got, b) => (got.map .bytes, bytes b)
  | text b =>
    match take b size (.badValue "I/O operation on closed file") with
    | (got, b) => (got.map fun cs => .text (String.ofList cs), text b)
  | file encoding unread => (fileText encoding unread, file encoding [])
  | script s             =>
    match s.read size with
    | (answer, s) => (answer, script s)

/-- Write bytes; the answer is how many were taken. -/
def write (bs : List UInt8) : Device → Except Raised Value × Device
  | bytes b =>
    if b.closed then (.error closedError, bytes b)
    else (.ok (.whole bs.length), bytes (b.putAll bs))
  | text b   => (.error (.named "TypeError" "string argument expected, got 'bytes'"), text b)
  | file e u => (.error { kind := .unsupported, args := [.words "write"] }, file e u)
  | script s =>
    match s.write bs with
    | (answer, s) => (answer, script s)

/-- Whether the stream knows how to flush. -/
def hasFlush : Device → Bool
  | script s => s.hasFlush
  | _        => true

/-- Flush the stream. A buffer of characters has nothing to flush, closed or not. -/
def flush : Device → Except Raised Unit × Device
  | bytes b  => (if b.closed then .error closedError else .ok (), bytes b)
  | text b   => (.ok (), text b)
  | file e u => (.ok (), file e u)
  | script s =>
    if s.hasFlush then
      match s.flush with
      | (answer, s) => (answer, script s)
    else (.error (.missing "Script" "flush"), script s)

/-- Close the stream. -/
def close : Device → Except Raised Unit × Device
  | bytes b  => (.ok (), bytes { b with closed := true })
  | text b   => (.ok (), text { b with closed := true })
  | file e u => (.ok (), file e u)
  | script s => (.error (.missing "Script" "close"), script s)

/-- The name that a stream goes by: its own, or that of its kind. -/
def name : Device → Value
  | bytes _  => .words "BytesIO"
  | text _   => .words "StringIO"
  | file _ _ => .words "TextIOWrapper"
  | script s => s.name?.getD (.words "Script")

end Device

/-- The streams of a host, known by their places. -/
abbrev Devices := Array Device

namespace Devices

/-- The stream at a place. -/
def device (ds : Devices) (i : Nat) : Device :=
  ds[i]?.getD .vacant

/-- Take a stream out and leave its place vacant. -/
@[noinline] def takeOut (ds : Devices) (i : Nat) (h : i < ds.size) : Device × Devices :=
  (ds[i], ds.set i .vacant)

/-- Call a stream and put it back as the call left it. The stream is out while it is called, so
    that it has a single owner and can change in place. -/
@[inline] def use {α : Type} (ds : Devices) (i : Nat) (call : Device → α × Device) : α × Devices :=
  if h : i < ds.size then
    match ds.takeOut i h with
    | (d, ds) =>
      match call d with
      | (a, d) => (a, ds.setIfInBounds i d)
  else ((call .vacant).1, ds)

/-- A call changes the stream that is called and no other. -/
theorem use_eq {α : Type} (ds : Devices) (i : Nat) (call : Device → α × Device) :
    ds.use i call = ((call (ds.device i)).1, ds.setIfInBounds i (call (ds.device i)).2) := by
  unfold use
  split
  · rename_i h
    have hd : ds.device i = ds[i] := by simp [device, h]
    rw [hd]
    simp [takeOut, Array.setIfInBounds, h]
  · rename_i h
    have hd : ds.device i = .vacant := by simp [device, h]
    rw [hd]
    simp [Array.setIfInBounds, h]

end Devices

end TapeMachine
