import TapeMachine.Raised

/-!
# Signatures

What a row of arguments has to be before something is made of it: how many there are, and of what
kind each is. `Signature.error?` is the complaint about a row that does not fit. The count is looked
at first, then the arguments in order, and the first mistake is the one told.
-/

namespace TapeMachine

/-- What one argument has to be. -/
inductive Parameter where
  /-- A text. -/
  | text
  /-- A whole number that fits a word. -/
  | word
  /-- Any value. -/
  | anything

/-- The arguments that something takes. -/
structure Signature where
  /-- What takes the arguments, where a complaint names it. -/
  name?    : Option String := none
  required : List Parameter
  optional : Nat := 0

/-- The complaint about a value in the place of a text, at a place counted from one. -/
def Parameter.textError? (owner? : Option String) (place : Nat) : Value → Option Raised
  | .words _ => none
  | v        =>
    let owner := (owner?.map (· ++ " ")).getD ""
    let got := if v.isAbsent then v.literal else v.kind
    some (.badKind (owner ++ "argument " ++ toString place ++ " must be str, not " ++ got))

/-- The complaint about a value in the place of a word. -/
def Parameter.wordError? (v : Value) : Option Raised :=
  match v.toInt? with
  | none   => some (.notWhole v)
  | some n =>
    if fitsWord n then none
    else some (.named "OverflowError" "Python int too large to convert to C ssize_t")

namespace Signature

/-- The complaint about the number of arguments. -/
def countError? (s : Signature) (given : Nat) : Option Raised :=
  let least := s.required.length
  let most := least + s.optional
  let complaint (bound : String) (n : Nat) : Raised :=
    .badKind (s.name?.getD "function" ++ " takes " ++ bound ++ " " ++ toString n ++ " arguments ("
      ++ toString given ++ " given)")
  if least ≤ given ∧ given ≤ most then none
  else if least = most then some (complaint "exactly" least)
  else if given < least then some (complaint "at least" least)
  else some (complaint "at most" most)

/-- The first complaint about arguments that stand from a place on, counted from one. -/
def kindError? (owner? : Option String) : Nat → List Parameter → List Value → Option Raised
  | place, p :: ps, v :: vs =>
    let first? := match p with
      | .text     => Parameter.textError? owner? place v
      | .word     => Parameter.wordError? v
      | .anything => none
    first? <|> kindError? owner? (place + 1) ps vs
  | _, _, _                 => none

/-- The complaint about a row of arguments. -/
def error? (s : Signature) (args : List Value) : Option Raised :=
  s.countError? args.length <|> kindError? s.name? 1 s.required args

end Signature

end TapeMachine
