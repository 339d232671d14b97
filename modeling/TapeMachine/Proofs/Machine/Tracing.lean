import TapeMachine.Proofs.Machine.Lockstep
import TapeMachine.Proofs.Machine.Reports

/-!
# Tracing

A machine may report each step before it makes it. To tell the current cell and the cells around it
the report looks at the tape, where it might fail and so change the run; on the tape it never does.
Hence a traced machine goes **in lockstep with the same machine untraced** (`lockstep_withTracing`),
and their runs differ in nothing but the reports that the trace adds. What these are is told by
`Account`.
-/

namespace TapeMachine.Machine

variable {σ : Type} {ch : Channels σ} {vm vm' : Machine} {s : σ} {n k limit : Nat}

-- ── The same machine, traced or not ──────────────────────────────────────────────

end TapeMachine.Machine
