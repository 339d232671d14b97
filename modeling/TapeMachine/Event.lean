import TapeMachine.Fault
import TapeMachine.Tape.View

/-!
# Log events

What the machine and its command line report while they work. An event is kept as what happened;
its wording, the part of the program that reports it and its severity are read off it. Events are
always produced, and a reader who asks for a certain severity leaves out those below it.
-/

namespace TapeMachine

/-- How much an event matters, in ascending order. -/
inductive Severity where
  | debug
  | info
  | warning
  | error
  deriving DecidableEq

namespace Severity

/-- The name of a severity. -/
def name : Severity → String
  | debug   => "DEBUG"
  | info    => "INFO"
  | warning => "WARNING"
  | error   => "ERROR"

/-- The place of a severity in the order. -/
def rank : Severity → Nat
  | debug   => 0
  | info    => 1
  | warning => 2
  | error   => 3

/-- The severity of a name. -/
def ofName? (s : String) : Option Severity :=
  [debug, info, warning, error].find? fun l => l.name = s

end Severity

/-- Something worth a line in the log. -/
inductive Event where
  /-- A source was cut into tokens. -/
  | scanned (bytes tokens : Nat)
  /-- A run began. -/
  | started (operations cells : Nat)
  /-- An element is about to be executed, in the given state. -/
  | traced (ip : Nat) (name : String) (pointer : Int) (cell : UInt8) (window : String)
  /-- A run came to the end of its program. -/
  | finished (steps : Nat)
  /-- A run ended with an error of executing its program. -/
  | aborted (steps : Nat) (fault : Fault)
  /-- The command line could not open the program. -/
  | unopened (path : String) (e : Raised)
  /-- The command line could not read or run the program. -/
  | unsuccessful (message : String)

namespace Event

/-- The part of the program that reports the event. -/
def reporter : Event → String
  | scanned ..     => "brainvm.lexer"
  | started ..     => "brainvm.vm"
  | traced ..      => "brainvm.vm"
  | finished _     => "brainvm.vm"
  | aborted ..     => "brainvm.vm"
  | unopened ..    => "bfvm"
  | unsuccessful _ => "bfvm"

/-- How much the event matters. -/
def severity : Event → Severity
  | scanned ..     => .debug
  | started ..     => .debug
  | traced ..      => .debug
  | finished _     => .debug
  | aborted ..     => .warning
  | unopened ..    => .error
  | unsuccessful _ => .error

/-- The wording of the event. -/
def message : Event → String
  | scanned bytes tokens =>
    "lexed " ++ toString bytes ++ " bytes into " ++ toString tokens ++ " tokens"
  | started operations cells =>
    "run: " ++ toString operations ++ " operations, " ++ toString cells ++ " cells"
  | traced ip name pointer cell window =>
    "ip=" ++ Text.zeroPadded 5 ip ++ " " ++ Text.leftAligned 12 name
      ++ " mp=" ++ Text.zeroPadded 5 pointer
      ++ " cell=" ++ Text.rightAligned 3 cell.toNat ++ "  " ++ window
  | finished steps => "run finished after " ++ toString steps ++ " steps"
  | aborted steps fault =>
    "run aborted after " ++ toString steps ++ " steps: " ++ fault.message
  | unopened path e =>
    "Cannot read source " ++ path ++ ": " ++ e.text
  | unsuccessful message => "Program execution failed: " ++ message

/-- Whether the event is one that a trace adds to a run. -/
def isTrace : Event → Bool
  | traced .. => true
  | _         => false

end Event

end TapeMachine
