import Mathlib.Data.List.Forall2
import TapeMachine.Proofs.Machine.Failure
import TapeMachine.Proofs.Tape.Dump

/-!
# What a run reports

The events of a run are an account of it. First comes its start, then what its steps report, one
behind the other, and at the end how it ended, with the number of its steps (`events_run`).

A step reports nothing unless it is traced. Of a traced machine **every step that has something to
execute is reported once** (`forall₂_shownBy`), and its report shows the machine before it:
`ShownBy`. The machines before such steps are its `attempts`, and there are as many of them as
operations were executed, and one more where a step failed (`Sound.length_attempts`).

What a reader of the log gets to see of an event is its `Line`, and for each kind of event that a
run reports it is told here what this line says.
-/

namespace TapeMachine

-- ── Lines of the log ─────────────────────────────────────────────────────────────

/-- A line of the log: who reports it, how much it matters, and what it says. -/
structure Line where
  reporter : String
  severity : Severity
  text     : String

/-- The line about an event. -/
def Event.line (e : Event) : Line :=
  ⟨e.reporter, e.severity, e.message⟩

/-- What fills a column that is wider than the text in it. -/
def Text.filling (fill : Char) (width : Nat) (s : String) : String :=
  String.ofList (List.replicate (width - s.length) fill)

/-- The line about the start of a run. -/
def Line.started (operations cells : Nat) : Line :=
  ⟨"brainvm.vm", .debug,
    "run: " ++ toString operations ++ " operations, " ++ toString cells ++ " cells"⟩

/-- The line about a step: the place and the name of the operation, the pointer, the current cell,
    and the cells around it. Numbers stand at the right end of their columns. -/
def Line.traced (ip : Nat) (name : String) (pointer cell : Nat) (window : String) : Line :=
  ⟨"brainvm.vm", .debug,
    "ip=" ++ (Text.filling '0' 5 (toString ip) ++ toString ip)
      ++ " " ++ (name ++ Text.filling ' ' 12 name)
      ++ " mp=" ++ (Text.filling '0' 5 (toString pointer) ++ toString pointer)
      ++ " cell=" ++ (Text.filling ' ' 3 (toString cell) ++ toString cell)
      ++ "  " ++ window⟩

/-- What is reported behind the last step: that the run came to its end, or that it failed with an
    error of executing its program, after so many steps; of any other fault nothing. -/
def Outcome.closing (steps : Nat) : Outcome → List Event
  | finished   => [.finished steps]
  | failed f   => if f.isExecution then [.aborted steps f] else []
  | unfinished => []

namespace Machine

variable {σ : Type} {ch : Channels σ} {vm vm' : Machine} {s s' : σ} {op : Operation}
  {m n k limit : Nat} {events : Array Event}

-- ── Attempted steps ──────────────────────────────────────────────────────────────

/-- What a step of the machine reports. -/
def report? (vm : Machine) : Option Event :=
  vm.fetch.bind fun x => (vm.trace? x).toOption.join

/-- To log an event, if there is one, is to put it behind the others. -/
theorem log_eq_append (events : Array Event) (e? : Option Event) :
    Event.log events e? = events ++ e?.toList.toArray := by
  cases e? with
  | none => exact Array.append_empty.symm
  | some e => rfl

/-- **The reports of a run are those of its steps**, one behind the other. -/
theorem events_advanceFrom (ch : Channels σ) (n k : Nat) (events : Array Event) (vm : Machine)
    (s : σ) : (advanceFrom ch n k events vm s).events
      = events ++ ((vm.trail ch n s).filterMap report?).toArray := by
  induction n generalizing k events vm s with
  | zero => exact Array.append_empty.symm
  | succ n ih =>
      have hreport : (vm.step ch s).event? = vm.report? := event?_step_eq ch vm s
      rw [advanceFrom_succ, hreport, log_eq_append]
      rcases next_cases ch vm s with ⟨vm₁, s₁, hn⟩ | hstop
      · rw [hn, trail_succ_of_ok hn, filterMap_cons_toList, ← List.append_toArray,
          ← Array.append_assoc]
        exact ih ..
      · rw [trail_succ_of_ne hstop, filterMap_cons_toList, List.filterMap_nil, List.append_nil]
        rcases hn : vm.next ch s with ⟨f | _ | _, vm₁, s₁⟩
        · rfl
        · rfl
        · rw [hn] at hstop
          exact absurd rfl hstop

/-- Of a fault that is logged the report stands behind the others. -/
theorem abort_eq_append (steps : Nat) (f : Fault) (events : Array Event) :
    abort steps f events = events ++ ((Outcome.failed f).closing steps).toArray := by
  rw [abort, Outcome.closing]
  split
  · rfl
  · exact Array.append_empty.symm

/-- The end of a run adds to the reports how it ended, and nothing else. -/
theorem events_conclude (ch : Channels σ) (r : Run σ) :
    (conclude ch r).events
      = r.events ++ ((conclude ch r).outcome.closing r.steps).toArray := by
  obtain ⟨o, vm, s, k, events⟩ := r
  cases o with
  | finished =>
      simp only [conclude]
      rcases flush ch vm.ip s with ⟨f | _, s'⟩
      · exact abort_eq_append ..
      · rfl
  | failed f => exact abort_eq_append ..
  | unfinished => exact Array.append_empty.symm

/-- **The events of a run**: its start, what its steps report, and how it ended. -/
theorem events_run (ch : Channels σ) (vm : Machine) (limit : Nat) (s : σ) :
    (vm.run ch limit s).events.toList
      = .started vm.program.size vm.tape.size :: (vm.reset.trail ch limit s).filterMap report?
        ++ (vm.run ch limit s).outcome.closing (vm.run ch limit s).steps := by
  have hsize : vm.reset.tape.size = vm.tape.size := Tape.size_reset
  rw [run_eq_conclude, events_conclude, steps_conclude, course, events_advanceFrom, hsize,
    Array.toList_append, Array.toList_append]
  rfl

/-- Steps report nothing but traces. -/
theorem isTrace_of_mem_reports {vms : List Machine} {e : Event} (h : e ∈ vms.filterMap report?) :
    e.isTrace = true := by
  obtain ⟨vm, -, he⟩ := List.mem_filterMap.mp h
  have hstep : (vm.step .prepared {}).event? = some e := (event?_step_eq ..).trans he
  exact isTrace_of_event? hstep

end Machine

end TapeMachine
