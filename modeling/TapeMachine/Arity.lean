/-!
# Arities

How many arguments a call takes: some that it cannot do without, which have names, and some more.
`Arity.complaint` is the wording when a call is given another number of them. The thing that is
called counts as one more argument there.
-/

namespace TapeMachine

/-- The arguments that a call cannot do without, by name, and how many more it takes. -/
structure Arity where
  required : List String := []
  optional : Nat := 0

namespace Arity

/-- Whether a call takes so many arguments. -/
def accepts (a : Arity) (given : Nat) : Bool :=
  a.required.length ≤ given && given ≤ a.required.length + a.optional

/-- The wording when a call is given too many arguments. -/
def tooMany (a : Arity) (given : Nat) : String :=
  let least := a.required.length + 1
  let span :=
    if a.optional = 0 then toString least
    else "from " ++ toString least ++ " to " ++ toString (least + a.optional)
  "takes " ++ span ++ " positional argument" ++ (if span = "1" then "" else "s") ++ " but "
    ++ toString (given + 1) ++ " were given"

/-- The wording when a call is given so many arguments and does not take them. -/
def complaint (a : Arity) (callee : String) (given : Nat) : String :=
  callee ++ "() " ++
    match (a.required.drop given).map (fun name => "'" ++ name ++ "'") with
    | []  => a.tooMany given
    | [n] => "missing 1 required positional argument: " ++ n
    | ns  => "missing " ++ toString ns.length ++ " required positional arguments: "
      ++ " and ".intercalate ns

end Arity

end TapeMachine
