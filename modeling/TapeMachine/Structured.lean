import TapeMachine.Channels
import TapeMachine.Machine.Run

/-!
# Structured programs

A program whose brackets are balanced is a tree: elementary operations in a row, some of them loops
with a tree of their own. Here the tree is given a meaning by itself, with no brackets and no jumps:
a loop evaluates its body **while the current cell is not zero**.

* `Block.flatten` writes a tree as the operations that the machine executes.
* `Block.evaluate` is the meaning of a tree. It is told the place at which the tree begins in the
  flat program, which it needs for nothing but to say where it ended and where a fault is.
-/

namespace TapeMachine

/-- An operation that is no bracket. -/
inductive Elementary where
  | increment
  | decrement
  | next
  | previous
  | input
  | output
  deriving DecidableEq

/-- The operation of the machine. -/
def Elementary.toOperation : Elementary → Operation
  | increment => .increment
  | decrement => .decrement
  | next      => .next
  | previous  => .previous
  | input     => .input
  | output    => .output

/-- What an elementary operation at place `ip` does to a tape and the streams. -/
def Elementary.perform {σ : Type} (ch : Channels σ) (ip : Nat) (op : Elementary)
    (t : Tape) (s : σ) : Except Fault Tape × σ :=
  match op with
  | increment => (t.increment.mapError .address, s)
  | decrement => (t.decrement.mapError .address, s)
  | next      => (.ok t.moveNext, s)
  | previous  => (.ok t.movePrevious, s)
  | input     =>
    match ch.read s with
    | (.error e, s)  => (.error (.ofRaised ip e), s)
    | (.ok chunk, s) =>
      match chunk.first? with
      | none            => (.error (.stream ip .exhausted), s)
      | some (.error e) => (.error (.passed e), s)
      | some (.ok v)    => ((t.write v none).mapError .address, s)
  | output    =>
    match t.current with
    | .error e => (.error (.address e), s)
    | .ok b    =>
      match ch.write b s with
      | (.error e, s)   => (.error (.ofRaised ip e), s)
      | (.ok report, s) => (if report.isZero then .error (.stream ip .refused) else .ok t, s)

/-- A row of elementary operations and loops. -/
inductive Block where
  | done
  | basic (op : Elementary) (rest : Block)
  | loop (body rest : Block)
  deriving DecidableEq

/-- What came of evaluating a block. The place is that behind the block, or that of the operation
    which failed. -/
structure Evaluation (σ : Type) where
  outcome : Outcome
  place   : Nat
  tape    : Tape
  streams : σ

namespace Block

/-- The operations of a block. -/
def flatten : Block → List Operation
  | done           => []
  | basic op rest  => op.toOperation :: rest.flatten
  | loop body rest => .loopForward :: body.flatten ++ .loopBack :: rest.flatten

/-- How many operations a block has. -/
def length : Block → Nat
  | done           => 0
  | basic _ rest   => rest.length + 1
  | loop body rest => body.length + rest.length + 2

theorem length_flatten (b : Block) : b.flatten.length = b.length := by
  induction b with
  | done => rfl
  | basic op rest ih => simp [flatten, length, ih]
  | loop body rest ihb ihr => simp [flatten, length, ihb, ihr]; omega

/-- The meaning of a block that begins at place `ip`. The first argument limits the depth of the
    evaluation; with too small a limit it stays unfinished. -/
def evaluate {σ : Type} (ch : Channels σ) : Nat → (ip : Nat) → Block → Tape → σ → Evaluation σ
  | 0, ip, _, t, s                  => ⟨.unfinished, ip, t, s⟩
  | _ + 1, ip, done, t, s           => ⟨.finished, ip, t, s⟩
  | n + 1, ip, basic op rest, t, s  =>
    match op.perform ch ip t s with
    | (.ok t, s)    => evaluate ch n (ip + 1) rest t s
    | (.error f, s) => ⟨.failed f, ip, t, s⟩
  | n + 1, ip, loop body rest, t, s =>
    match t.current with
    | .error e => ⟨.failed (.address e), ip, t, s⟩
    | .ok cell =>
      if cell = 0 then evaluate ch n (ip + body.length + 2) rest t s
      else
        let first := evaluate ch n (ip + 1) body t s
        match first.outcome with
        | .finished => evaluate ch n ip (loop body rest) first.tape first.streams
        | _         => first

end Block

end TapeMachine
