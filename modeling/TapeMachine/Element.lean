import TapeMachine.Operation
import TapeMachine.Value

/-!
# Elements of a program

A program handed to the machine is a sequence whose members need not all be operations: callers
may pass tokens, values of any kind, or leave a place empty. `Element` is what can stand in a place.

* `Element.operationsOf` accepts a sequence of tokens and `Element.tokensOf` one of operations;
  either refuses the first foreign element.
-/

namespace TapeMachine

/-- What can stand in one place of a program. -/
inductive Element where
  | operation (op : Operation)
  | token (t : Token)
  | bare (v : Value)
  | empty
  deriving Inhabited

namespace Element

/-- The element written out, texts quoted. -/
def literal : Element → String
  | operation op => op.literal
  | token t      => t.literal
  | bare v       => v.literal
  | empty        => Value.absent.literal

/-- What messages call the kind of an element. -/
def kind : Element → String
  | operation _ => "Operation"
  | token _     => "Token"
  | bare v      => v.kind
  | empty       => Value.absent.kind

/-- Whether an element can be looked up in a table. -/
def isKey : Element → Bool
  | bare v => v.isKey
  | _      => true

/-- The operation that a token stands for; no other element stands for one. -/
def operation? : Element → Option Operation
  | token t => some (.ofToken t)
  | _       => none

/-- The token that an operation comes from; no other element comes from one. -/
def token? : Element → Option Token
  | operation op => some op.toToken
  | _            => none

/-- Apply a partial map to every element, or give the first one that it is not defined on. -/
def mapAll {α : Type} (f : Element → Option α) : List Element → Except Element (List α)
  | []      => .ok []
  | e :: es =>
    match f e with
    | none   => .error e
    | some a =>
      match mapAll f es with
      | .error x => .error x
      | .ok as   => .ok (a :: as)

/-- The operations of a sequence of tokens; the error is the first element that is no token. -/
def operationsOf (es : List Element) : Except Element (List Operation) :=
  mapAll operation? es

/-- The tokens of a sequence of operations; the error is the first element that is no operation. -/
def tokensOf (es : List Element) : Except Element (List Token) :=
  mapAll token? es

end Element

/-- A program: what stands in each place, from the first on. -/
abbrev Program := Array Element

/-- The program made of a list of operations. -/
def Program.ofOperations (ops : List Operation) : Program :=
  (ops.map Element.operation).toArray

end TapeMachine
