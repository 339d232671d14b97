import TapeMachine.Bracket.Pairing
import TapeMachine.Main
import TapeMachine.Proofs.Bracket.Agreement
import TapeMachine.Proofs.Machine.Buffered
import TapeMachine.Proofs.Structured.Simulation
import TapeMachine.Source.Run
import TapeMachine.Structured
import TapeMachine.Tape.Method
import TapeMachine.Text.Decimal
import TapeMachine.Proofs.Bracket.Region
import TapeMachine.Proofs.Machine.Failure
import TapeMachine.Proofs.Bracket.Fragment
import TapeMachine.Proofs.Machine.Composition
import TapeMachine.Proofs.Machine.History
import TapeMachine.Proofs.Source.Instructions
import TapeMachine.Proofs.Source.Reading
import TapeMachine.Proofs.Source.Translation
import TapeMachine.Proofs.Crew.SharedInput
import TapeMachine.Proofs.Machine.Likeness
import TapeMachine.Proofs.Handle.Layers
import TapeMachine.Proofs.CommandLine.Invocation
import TapeMachine.Proofs.Device.Writes
import TapeMachine.Proofs.CommandLine.Outcome
import TapeMachine.Proofs.CommandLine.NoSource
import TapeMachine.Proofs.Device.Drained
import TapeMachine.Proofs.Machine.Starved
import TapeMachine.Proofs.CommandLine.StandardInput
import TapeMachine.Proofs.Tape.Dump
import TapeMachine.Proofs.Machine.Lockstep
import TapeMachine.Proofs.Machine.Reports
import TapeMachine.Proofs.Machine.Tracing
import TapeMachine.Proofs.Machine.Causality
import TapeMachine.Proofs.Bracket.Exchange
import TapeMachine.Proofs.Tape.Symmetry
import TapeMachine.Proofs.Machine.Symmetry
import TapeMachine.Proofs.Machine.Rotation
import TapeMachine.Proofs.Machine.Duality
import TapeMachine.Proofs.Machine.Unseen
import TapeMachine.Proofs.Machine.Footprint
import TapeMachine.Proofs.Machine.Resizing
import TapeMachine.Proofs.Bracket.Insertion
import TapeMachine.Proofs.Machine.Stutter
import TapeMachine.Proofs.Machine.CancellingPair
import TapeMachine.Proofs.Tape.Shifted
import TapeMachine.Proofs.Structured.CountingLoop
import TapeMachine.Proofs.Tape.Addressing
import TapeMachine.Proofs.Machine.Progress
import TapeMachine.Proofs.Structured.StraightLine
import TapeMachine.Proofs.Machine.StreamFailure
import TapeMachine.Proofs.Tape.Views
