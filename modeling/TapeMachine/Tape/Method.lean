import TapeMachine.Arity
import TapeMachine.Raised.Operands
import TapeMachine.Tape.View

/-!
# Methods of the tape

Who works a tape from outside names a method and gives arguments of any kind. `Tape.call` is what
comes of it: an answer and the tape after it, or an error if the method cannot use the arguments.

* An absent address is that of the pointer, and a flag counts as one or zero wherever a number is
  needed.
* A stretch of cells is given by its beginning and its length, and the two are added before anything
  else is done with them. So what does not add up is the first mistake that is told.
-/

namespace TapeMachine

/-- The error of an address that names no cell. -/
def AddressError.raised (e : AddressError) : Raised :=
  .named "IndexError" e.message

namespace Tape

/-- What a tape can be asked to do. -/
inductive Method where
  | read
  | write
  | increment
  | decrement
  | moveNext
  | movePrevious
  | reset
  | snapshot
  | dump

namespace Method

/-- The name of a method. -/
def name : Method → String
  | read         => "read"
  | write        => "write"
  | increment    => "increment"
  | decrement    => "decrement"
  | moveNext     => "move_next"
  | movePrevious => "move_prev"
  | reset        => "reset"
  | snapshot     => "snapshot"
  | dump         => "dump"

/-- The method of a name. -/
def ofName? (s : String) : Option Method :=
  [read, write, increment, decrement, moveNext, movePrevious, reset, snapshot, dump].find?
    fun m => m.name = s

/-- How many arguments a method takes. -/
def arity : Method → Arity
  | read     => { optional := 1 }
  | write    => { required := ["value"], optional := 1 }
  | snapshot => { optional := 2 }
  | dump     => { optional := 2 }
  | _        => {}

end Method

/-- What a method answers. -/
inductive Answer where
  | nothing
  | cell (v : UInt8)
  | cells (vs : Array UInt8)
  | text (s : String)

-- ── Arguments ────────────────────────────────────────────────────────────────────

/-- The address that a value names, if it is there at all. -/
def addressOf (v : Value) : Except Raised (Option Int) :=
  if v.isAbsent then .ok none
  else match v.toInt? with
    | some a => .ok (some a)
    | none   => .error (.badKind ("bytearray indices must be integers or slices, not " ++ v.kind))

/-- The complaint about a bound of a stretch that is no whole number. -/
def badBound : Raised :=
  .badKind "slice indices must be integers or None or have an __index__ method"

-- ── Calls ────────────────────────────────────────────────────────────────────────

/-- The answer to reading at an address. -/
def readAt (t : Tape) (address : Value) : Except Raised Answer :=
  match addressOf address with
  | .error e => .error e
  | .ok a    =>
    match t.read a with
    | .ok v    => .ok (.cell v)
    | .error e => .error e.raised

/-- The tape after writing a value at an address. The value is looked at first. -/
def writeAt (t : Tape) (value address : Value) : Except Raised Tape :=
  match value.toInt? with
  | none   => .error (.badOperands "&" value.kind "int")
  | some v =>
    match addressOf address with
    | .error e => .error e
    | .ok a    => (t.write v a).mapError AddressError.raised

/-- The copy of a stretch. An absent beginning without a length is that of the tape. -/
def copyOf (t : Tape) (start length : Value) : Except Raised Answer :=
  if length.isAbsent then
    if start.isAbsent then .ok (.cells (t.snapshot 0 none))
    else match start.toInt? with
      | some a => .ok (.cells (t.snapshot a none))
      | none   => .error badBound
  else match start.toInt?, length.toInt? with
    | some a, some n => .ok (.cells (t.snapshot a (some n)))
    | _, _           => .error ((Raised.sumError? start length).getD badBound)

/-- The dump of a stretch. It may end at a fraction that is off the tape, since it ends with the
    tape then. -/
def dumpOf (t : Tape) (start length : Value) : Except Raised Answer :=
  match start.toInt?, length.toInt? with
  | some a, some n => dumped a n
  | a?, _          =>
    match Raised.sumError? start length with
    | some e => .error e
    | none   =>
      match a?, length with
      | some a, .float x =>
        if Float.ofNat t.size < Float.ofInt a + x then dumped a (t.size - a)
        else .error (.notWhole length)
      | _, _             =>
        match start with
        | .float _ => .error (.notWhole start)
        | _        => .error (.unordered "int" start.kind)
where
  dumped (a n : Int) : Except Raised Answer :=
    match t.dump a n with
    | .ok s    => .ok (.text s)
    | .error e => .error e.raised

/-- The answer to a call that changes the tape, and the tape after it. -/
def changed (t : Tape) : Except Raised Tape → Except Raised Answer × Tape
  | .ok t    => (.ok .nothing, t)
  | .error e => (.error e, t)

/-- Call a method with some arguments. -/
def call (t : Tape) (m : Method) (args : List Value) : Except Raised Answer × Tape :=
  if m.arity.accepts args.length then
    let argument (i : Nat) (usual : Value) := args[i]?.getD usual
    match m with
    | .read         => (t.readAt (argument 0 .absent), t)
    | .write        => t.changed (t.writeAt (argument 0 .absent) (argument 1 .absent))
    | .increment    => t.changed (t.increment.mapError AddressError.raised)
    | .decrement    => t.changed (t.decrement.mapError AddressError.raised)
    | .moveNext     => (.ok .nothing, t.moveNext)
    | .movePrevious => (.ok .nothing, t.movePrevious)
    | .reset        => (.ok .nothing, t.reset)
    | .snapshot     => (t.copyOf (argument 0 (.whole 0)) (argument 1 .absent), t)
    | .dump         => (t.dumpOf (argument 0 (.whole 0)) (argument 1 (.whole 16)), t)
  else (.error (.badKind (m.arity.complaint ("Tape." ++ m.name) args.length)), t)

end Tape

end TapeMachine
