import TapeMachine.CommandLine.Arguments
import TapeMachine.CommandLine.Directory
import TapeMachine.Diagnostic
import TapeMachine.Host

/-!
# The command line

One call reads the program at a path, or on the standard input if there is none, and runs it on the
standard streams with a tape of the usual size.

* **Exit status 0** means that the program ran to its end; **1** that it could not be opened, read
  or run, which one line in the log tells; **2** that the arguments make no sense.
* An error that is neither an unopened file nor one of this library escapes, unless it asks for an
  exit with a status of its own.
* A program on the standard input is read to the end of that stream, so it shares it with the
  input of the program.
-/

namespace TapeMachine.CommandLine

/-- The version that the help text shows. -/
def version : String := "0.2.0"

/-- The only severity that the command line lets through, with those above it. -/
def threshold : Severity := .warning

/-- The first line of the help text and of every complaint about the arguments. -/
def usage : String :=
  "usage: bfvm [-h] [source]\n"

/-- The help text. -/
def helpText : String :=
  usage
    ++ "\nbrainvm " ++ version ++ " — run a program on the standard VM\n"
    ++ "\npositional arguments:\n"
    ++ "  source      Program source file (default: read from stdin)\n"
    ++ "\noptions:\n"
    ++ "  -h, --help  show this help message and exit\n"

-- ── Endings ──────────────────────────────────────────────────────────────────────

/-- How a call ended. -/
inductive Exit where
  /-- With a status, after a program. -/
  | status (code : Nat)
  /-- With a status and a text for the user, because of the arguments. -/
  | arguments (code : Nat) (complaint : String)
  /-- With an error that nothing answers for. -/
  | escaped (d : Diagnostic)
  /-- With the status that an error asks for, which may be any value. -/
  | requested (status : Value)
  /-- Not at all within the limit on the steps of the program. -/
  | unfinished

namespace Exit

/-- The exit with an error that nothing answers for. One class of errors asks for the exit and holds
    its status. -/
def ofRaised (e : Raised) : Exit :=
  if e.kind = .other "SystemExit" then
    match e.args with
    | []     => .requested .absent
    | [v]    => .requested v
    | values => .requested (.items values)
  else .escaped (.ofRaised e)

/-- The exit with a fault that is no error of this library. -/
def ofFault : Fault → Exit
  | .passed e => .ofRaised e
  | f         => .escaped (.ofFault f)

end Exit

/-- How a call ended and what it reported on the way. -/
structure Ending where
  exit   : Exit
  events : Array Event := #[]

namespace Ending

/-- The ending after a run. -/
def ofRun {σ : Type} (r : Run σ) : Ending :=
  match r.outcome with
  | .finished   => ⟨.status 0, r.events⟩
  | .unfinished => ⟨.unfinished, r.events⟩
  | .failed f   =>
    if f.isOwn then ⟨.status 1, r.events.push (.unsuccessful f.message)⟩
    else ⟨.ofFault f, r.events⟩

/-- The ending with an error that says nothing about the program. One of this library is answered
    for like any other. -/
def ofPassed (e : Raised) : Ending :=
  if e.isOwn then ⟨.status 1, #[.unsuccessful e.text]⟩ else ⟨.ofRaised e, #[]⟩

/-- The ending if no program came out of its stream. -/
def ofReadError : ReadError → Ending
  | .passed e         => ofPassed e
  | .unreadable cause => ⟨.status 1, #[.unsuccessful (ReadError.unreadable cause).message]⟩

/-- The ending if the file of the program did not open. -/
def ofUnopened (path : String) (e : Raised) : Ending :=
  if e.kind.isSystem then ⟨.status 1, #[.unopened path e]⟩ else ofPassed e

/-- The ending after the help text, by the answer to writing it. -/
def ofHelp : Except Raised Value → Ending
  | .ok _    => ⟨.arguments 0 "", #[]⟩
  | .error e => ⟨.ofRaised e, #[]⟩

/-- The ending after arguments that make no sense. -/
def ofComplaint (message : String) : Ending :=
  ⟨.arguments 2 (usage ++ "bfvm: error: " ++ message ++ "\n"), #[]⟩

end Ending

-- ── Invocations ──────────────────────────────────────────────────────────────────

/-- A call of the command line that ended, with the host after it. -/
structure Invocation extends Ending where
  host : Host

/-- Run operations with a new engine on the standard streams. -/
def runOperations (limit : Nat) (ops : List Operation) (h : Host) : Invocation :=
  match Engine.make {} h with
  | .error e    => { exit := .escaped (.ofSizeError e), host := h }
  | .ok (vm, h) =>
    let vm := { vm with machine := vm.machine.load (.ofOperations ops) }
    let run := vm.run limit h.devices
    { Ending.ofRun run with host := { h with devices := run.streams } }

/-- Run the program that a read handed over. -/
def runSource (limit : Nat) (source : Except ReadError Source) (h : Host) : Invocation :=
  match source with
  | .error e => { Ending.ofReadError e with host := h }
  | .ok s    =>
    let run := runOperations limit s.operations h
    { run with events := #[s.scanned] ++ run.events }

/-- Run the program at a path. -/
def runPath (limit : Nat) (files : Files) (path : String) (h : Host) : Invocation :=
  match files path with
  | .ok answer => runSource limit (Source.ofAnswer answer) h
  | .error e   => { Ending.ofUnopened path e with host := h }

/-- Run the program on the standard input. -/
def runStandardInput (limit : Nat) (h : Host) : Invocation :=
  match Source.readFrom h.stdin h.devices with
  | (source, ds) => runSource limit source { h with devices := ds }

/-- Show the help text on the standard output. -/
def showHelp (h : Host) : Invocation :=
  match h.stdout.write helpText.toUTF8.toList h.devices with
  | (answer, ds) => { Ending.ofHelp answer with host := { h with devices := ds } }

/-- Call the command line with some arguments. -/
def invoke (limit : Nat) (files : Files) (args : List String) (h : Host) : Invocation :=
  match Request.ofArguments args with
  | .help                => showHelp h
  | .invalid message     => { Ending.ofComplaint message with host := h }
  | .program (some path) => runPath limit files path h
  | .program none        => runStandardInput limit h

end TapeMachine.CommandLine
