import TapeMachine.CommandLine
import TapeMachine.Machine.Demand
import TapeMachine.Raised.Construction

/-!
# The program

The command line on the real streams and files. What to do is decided in
`TapeMachine.CommandLine`; here the streams are called and the answers handed in. The machine is
asked before each step what it wants of its streams, so a program meets its user in the order in
which it reads and writes.
-/

namespace TapeMachine.CommandLine

/-- The number and the reason of an operating-system error, if it has them. -/
def numberAndReason : IO.Error → Option (UInt32 × String)
  | .alreadyExists _ n r         => some (n, r)
  | .otherError n r              => some (n, r)
  | .resourceBusy n r            => some (n, r)
  | .resourceVanished n r        => some (n, r)
  | .unsupportedOperation n r    => some (n, r)
  | .hardwareFault n r           => some (n, r)
  | .unsatisfiedConstraints n r  => some (n, r)
  | .illegalOperation n r        => some (n, r)
  | .protocolError n r           => some (n, r)
  | .timeExpired n r             => some (n, r)
  | .interrupted _ n r           => some (n, r)
  | .noFileOrDirectory _ n r     => some (n, r)
  | .invalidArgument _ n r       => some (n, r)
  | .permissionDenied _ n r      => some (n, r)
  | .resourceExhausted _ n r     => some (n, r)
  | .inappropriateType _ n r     => some (n, r)
  | .noSuchThing _ n r           => some (n, r)
  | .unexpectedEof               => none
  | .userError _                 => none

/-- The error number as a positive one; some calls give its negative as a word of 32 bits. -/
def positive (n : UInt32) : Nat :=
  if n < 0x80000000 then n.toNat else (0 - n).toNat

/-- An operating-system error, with the file it is about if there is one. -/
def raisedBy (file? : Option String) (e : IO.Error) : Raised :=
  match numberAndReason e with
  | some (n, r) =>
    let reason := (PathError.ofNumber? (positive n)).elim r PathError.message
    .ofName "OSError" ([.whole (positive n), .words reason] ++ (file?.map Value.words).toList)
  | none        => .ofName "OSError" [.words (toString e)]

/-- Call a stream or a file, and take an error as an answer. -/
def answerOf {α : Type} (file? : Option String) (act : IO α) : IO (Except Raised α) := do
  match ← act.toBaseIO with
  | .ok a    => return .ok a
  | .error e => return .error (raisedBy file? e)

/-- Read a stream to its end. -/
partial def readAll (stream : IO.FS.Stream) (got : ByteArray) : IO ByteArray := do
  let more ← stream.read 65536
  if more.isEmpty then return got else readAll stream (got ++ more)

/-- How a path opens. A directory opens but cannot be read, which counts as not opening. -/
def openReal (path : String) : IO (Except Raised (Except Raised Chunk)) := do
  match ← answerOf (some path) (IO.FS.Handle.mk path .read) with
  | .error e => return .error e
  | .ok file =>
    match ← answerOf (some path) (readAll (.ofHandle file) .empty) with
    | .ok bs   => return .ok (.ok (.bytes bs.toList))
    | .error e =>
      if e.kind = .system .isDirectory then return .error e
      else return .ok (.error { e with args := e.args.take 2 })

/-- The answers to what a machine demands. -/
def prepare (stdin stdout : IO.FS.Stream) : Option Demand → IO Prepared
  | none            => return {}
  | some .read      => do
    let answer ← answerOf none (stdin.read 1)
    return { read := answer.map fun bs => .bytes bs.toList }
  | some (.write b) => do
    let answer ← answerOf none (stdout.write ⟨#[b]⟩)
    return { write := answer.map fun _ => .whole 1 }

/-- Step a machine to the end of its program or to a fault. -/
partial def drive (stdin stdout : IO.FS.Stream) (steps : Nat) (vm : Machine) :
    IO (Run Prepared) := do
  let answers ← prepare stdin stdout vm.demand?
  let run := vm.advance .prepared 1 answers
  match run.outcome with
  | .unfinished => drive stdin stdout (steps + run.steps) run.machine
  | _           => return { run with steps := steps + run.steps }

/-- Run a program and flush its output. -/
def runReal (stdin stdout : IO.FS.Stream) (source : Except ReadError Source) : IO Ending := do
  match source with
  | .error e => return .ofReadError e
  | .ok s    =>
    let vm : Machine :=
      { program := .ofOperations s.operations
        tape    := .blank defaultSize (by decide) }
    let run ← drive stdin stdout 0 vm
    match run.outcome with
    | .finished =>
      let answer ← answerOf none stdout.flush
      return .ofRun (Machine.conclude .prepared { run with streams := { flush := answer } })
    | _         => return .ofRun (Machine.conclude .prepared run)

/-- Call the command line with some arguments. -/
def callReal (stdin stdout : IO.FS.Stream) (args : List String) : IO Ending := do
  match Request.ofArguments args with
  | .help                =>
    let answer ← answerOf none (stdout.putStr helpText)
    return .ofHelp (answer.map fun _ => .absent)
  | .invalid message     => return .ofComplaint message
  | .program (some path) =>
    match ← openReal path with
    | .error e   => return .ofUnopened path e
    | .ok answer => runReal stdin stdout (Source.ofAnswer answer)
  | .program none        =>
    let answer ← answerOf none (readAll stdin .empty)
    runReal stdin stdout (Source.ofAnswer (answer.map fun bs => .bytes bs.toList))

/-- Tell the user how a call ended, and give the exit status. -/
def report (stderr : IO.FS.Stream) (e : Ending) : IO UInt32 := do
  for event in e.events do
    if threshold.rank ≤ event.severity.rank then
      stderr.putStrLn (Text.leftAligned 8 event.severity.name ++ " " ++ event.message)
  match e.exit with
  | .status code              => return code.toUInt32
  | .arguments code complaint =>
    stderr.putStr complaint
    return code.toUInt32
  | .escaped d                =>
    stderr.putStrLn (d.name ++ ": " ++ d.message)
    return 1
  | .requested status         => return (status.toInt?.getD 1 % 256).toNat.toUInt32
  | .unfinished               => return 1

end TapeMachine.CommandLine

/-- Run a tape program from a file or from the standard input. -/
def main (args : List String) : IO UInt32 := do
  let ending ← TapeMachine.CommandLine.callReal (← IO.getStdin) (← IO.getStdout) args
  TapeMachine.CommandLine.report (← IO.getStderr) ending
