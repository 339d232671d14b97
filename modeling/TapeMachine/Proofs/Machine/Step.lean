import TapeMachine.Proofs.Bracket.Depth
import TapeMachine.Proofs.Machine.Elementary

/-!
# One step

What a single step can do, said once. An operation that is no bracket does to tape and streams what
`Elementary.perform` says and goes on to the next place; a bracket touches neither and only chooses
where to go on; whatever fails leaves the machine as it was.

* `Machine.next` is a step without its trace. Its equations (`next_elementary`, `next_skip`,
  `next_enter`, …) tell what it is for each kind of element.
* `StepCase` lists the ways in which a step of a machine on its tape can go, each with its condition
  and with all that it leaves behind, and `stepCase` says that there are no others. Facts about all
  steps are proved by cases on it.
-/

namespace TapeMachine

namespace Machine

variable {σ : Type} {ch : Channels σ} {vm : Machine} {s : σ} {op : Operation} {x : Element}

-- ── Machines that differ in place and tape ───────────────────────────────────────

/-- The machine at place `k`, with another tape. -/
def moved (vm : Machine) (k : Nat) (t : Tape) : Machine :=
  { vm with ip := k, tape := t }

@[simp] theorem moved_program (k : Nat) (t : Tape) : (vm.moved k t).program = vm.program := rfl

@[simp] theorem moved_ip (k : Nat) (t : Tape) : (vm.moved k t).ip = k := rfl

@[simp] theorem moved_tape (k : Nat) (t : Tape) : (vm.moved k t).tape = t := rfl

@[simp] theorem moved_moved (j k : Nat) (t u : Tape) :
    (vm.moved j t).moved k u = vm.moved k u := rfl

-- ── Fetching ─────────────────────────────────────────────────────────────────────

/-- What is executed next stands in the program, at the place of the machine. -/
theorem getElem?_of_fetch (hf : vm.fetch = some x) : vm.program[vm.ip]? = some x := by
  rw [fetch] at hf
  split at hf
  · exact nomatch hf
  · exact hf

/-- An operation at the place of the machine is executed next. -/
theorem fetch_operation (h : vm.program[vm.ip]? = some (.operation op)) :
    vm.fetch = some (.operation op) := by
  rw [fetch, h]

/-- At the end of the program there is nothing to execute. -/
theorem fetch_of_size_le (h : vm.program.size ≤ vm.ip) : vm.fetch = none := by
  have hp : vm.program[vm.ip]? = none := by simpa using h
  rw [fetch, hp]

-- ── Steps without their traces ───────────────────────────────────────────────────

/-- A step without its trace: the result, and machine and streams as they are after it. -/
def next (ch : Channels σ) (vm : Machine) (s : σ) : Except Fault Bool × Machine × σ :=
  ((vm.step ch s).result, (vm.step ch s).machine, (vm.step ch s).streams)

/-- With nothing to execute a step does nothing. -/
theorem next_of_fetch_eq_none (hf : vm.fetch = none) : vm.next ch s = (.ok false, vm, s) := by
  rw [next, step, hf]

/-- On the tape the trace of an operation shows it with its place, the pointer, the current cell and
    the cells around it. -/
theorem exists_trace (hon : vm.tape.OnTape) (op : Operation) :
    ∃ w, vm.tape.window = .ok w ∧ vm.trace (.operation op)
      = .ok (.traced vm.ip op.name vm.tape.pointer (vm.tape.get hon.index) w) := by
  obtain ⟨w, hw⟩ := hon.exists_window
  refine ⟨w, hw, ?_⟩
  rw [trace, nameOf, hon.current_eq, hw]

/-- On the tape the trace of an operation, if there is one, never fails. -/
theorem exists_trace? (hon : vm.tape.OnTape) (op : Operation) :
    ∃ e?, vm.trace? (.operation op) = .ok e? := by
  obtain ⟨w, -, hw⟩ := exists_trace hon op
  rw [trace?, hw]
  split
  · exact ⟨_, rfl⟩
  · exact ⟨none, rfl⟩

/-- What a step reports is the trace of the element it is about to execute. -/
theorem event?_step_eq (ch : Channels σ) (vm : Machine) (s : σ) :
    (vm.step ch s).event? = vm.fetch.bind fun x => (vm.trace? x).toOption.join := by
  rw [step]
  cases vm.fetch with
  | none => rfl
  | some x =>
      dsimp only [Option.bind_some]
      cases vm.trace? x with
      | error f => rfl
      | ok e? =>
          cases x with
          | operation op =>
              dsimp only
              rcases vm.execute ch op s with ⟨_ | _, _, _⟩
              · rfl
              · rfl
          | token t => rfl
          | bare v => rfl
          | empty => rfl

/-- On the tape a step is the execution of its operation. -/
theorem next_operation (hon : vm.tape.OnTape) (hf : vm.fetch = some (.operation op)) :
    vm.next ch s
      = ((vm.execute ch op s).1.map fun _ => true, (vm.execute ch op s).2) := by
  obtain ⟨e?, he⟩ := exists_trace? hon op
  rw [next, step, hf]
  dsimp only
  rw [he]
  rcases vm.execute ch op s with ⟨_ | _, _, _⟩
  · rfl
  · rfl

/-- An elementary operation acts on tape and streams alone. -/
theorem execute_toOperation (op : Elementary) :
    vm.execute ch op.toOperation s = match op.perform ch vm.ip vm.tape s with
      | (.ok t, s')    => (.ok (), vm.moved (vm.ip + 1) t, s')
      | (.error f, s') => (.error f, vm, s') := by
  cases op with
  | increment =>
      show vm.alter (· + 1) s = _
      rw [alter, Elementary.perform, Tape.increment]
      cases vm.tape.here with
      | ok i => rfl
      | error e => rfl
  | decrement =>
      show vm.alter (· - 1) s = _
      rw [alter, Elementary.perform, Tape.decrement]
      cases vm.tape.here with
      | ok i => rfl
      | error e => rfl
  | next => rfl
  | previous => rfl
  | input =>
      show vm.takeInput ch s = _
      rw [takeInput, Elementary.perform]
      rcases ch.read s with ⟨_ | chunk, s'⟩
      · rfl
      · dsimp only
        rcases chunk.first? with _ | _ | v
        · rfl
        · rfl
        · dsimp only
          rw [alter, Tape.here, Tape.write, Option.getD_none]
          cases vm.tape.locate vm.tape.pointer with
          | ok i => rfl
          | error e => rfl
  | output =>
      show vm.giveOutput ch s = _
      rw [giveOutput, Elementary.perform]
      cases vm.tape.current with
      | error e => rfl
      | ok b =>
          dsimp only
          rcases ch.write b s with ⟨_ | report, s'⟩
          · rfl
          · dsimp only
            split
            · rfl
            · rfl

/-- An operation that is no bracket acts on tape and streams, and goes on to the next place if it
    succeeds. -/
theorem next_elementary {op : Elementary} (hon : vm.tape.OnTape)
    (hf : vm.fetch = some (.operation op.toOperation)) :
    vm.next ch s = match op.perform ch vm.ip vm.tape s with
      | (.ok t, s')    => (.ok true, vm.moved (vm.ip + 1) t, s')
      | (.error f, s') => (.error f, vm, s') := by
  rw [next_operation hon hf, execute_toOperation]
  rcases op.perform ch vm.ip vm.tape s with ⟨_ | t, s'⟩
  · rfl
  · rfl

/-- What a step on `input` comes to. -/
theorem next_input (hon : vm.tape.OnTape) (hf : vm.fetch = some (.operation .input)) :
    vm.next ch s = match (ch.read s).1 with
      | .error e  => (.error (.ofRaised vm.ip e), vm, (ch.read s).2)
      | .ok chunk =>
        match chunk.first? with
        | none            => (.error (.stream vm.ip .exhausted), vm, (ch.read s).2)
        | some (.error e) => (.error (.passed e), vm, (ch.read s).2)
        | some (.ok v)    =>
          (.ok true, vm.moved (vm.ip + 1) (vm.tape.set hon.index (UInt8.ofInt v)),
            (ch.read s).2) := by
  have hop : vm.fetch = some (.operation Elementary.input.toOperation) := hf
  rw [next_elementary hon hop, Elementary.perform_input]
  rcases (ch.read s).1 with e | chunk
  · rfl
  · dsimp only
    rcases chunk.first? with _ | e | v
    · rfl
    · rfl
    · dsimp only
      rw [hon.write_eq]
      rfl

/-- What a step on `output` comes to. -/
theorem next_output {b : UInt8} (hon : vm.tape.OnTape) (hf : vm.fetch = some (.operation .output))
    (hc : vm.tape.current = .ok b) :
    vm.next ch s = match (ch.write b s).1 with
      | .error e   => (.error (.ofRaised vm.ip e), vm, (ch.write b s).2)
      | .ok report =>
        if report.isZero then (.error (.stream vm.ip .refused), vm, (ch.write b s).2)
        else (.ok true, vm.moved (vm.ip + 1) vm.tape, (ch.write b s).2) := by
  have hop : vm.fetch = some (.operation Elementary.output.toOperation) := hf
  obtain rfl : b = vm.tape.get hon.index := Except.ok.inj (hc.symm.trans hon.current_eq)
  rw [next_elementary hon hop, Elementary.perform_output hon]
  rcases (ch.write (vm.tape.get hon.index) s).1 with e | report
  · rfl
  · dsimp only
    cases report.isZero with
    | true => rfl
    | false => rfl

/-- A step on a `loopForward` with a zero cell leaves the loop out. -/
theorem next_skip (hon : vm.tape.OnTape) (hf : vm.fetch = some .opening)
    (hc : vm.tape.current = .ok 0) :
    vm.next ch s = match vm.program.partnerRight vm.ip with
      | some j => (.ok true, vm.moved (j + 1) vm.tape, s)
      | none   => (.error (.unmatchedOpen vm.ip), vm, s) := by
  rw [next_operation hon hf]
  rw [execute, openLoop, hc]
  dsimp only
  rw [if_pos rfl]
  cases vm.program.partnerRight vm.ip with
  | some j => rfl
  | none => rfl

/-- A step on a `loopForward` with another cell enters the loop. -/
theorem next_enter {b : UInt8} (hon : vm.tape.OnTape) (hf : vm.fetch = some .opening)
    (hc : vm.tape.current = .ok b) (hb : b ≠ 0) :
    vm.next ch s = (.ok true, vm.moved (vm.ip + 1) vm.tape, s) := by
  rw [next_operation hon hf]
  rw [execute, openLoop, hc]
  dsimp only
  rw [if_neg hb]
  rfl

/-- A step on a `loopBack` with a zero cell leaves the loop. -/
theorem next_leave (hon : vm.tape.OnTape) (hf : vm.fetch = some .closing)
    (hc : vm.tape.current = .ok 0) :
    vm.next ch s = (.ok true, vm.moved (vm.ip + 1) vm.tape, s) := by
  rw [next_operation hon hf]
  rw [execute, closeLoop, hc]
  dsimp only
  rw [if_pos rfl]
  rfl

/-- A step on a `loopBack` with another cell repeats the loop. -/
theorem next_repeat {b : UInt8} (hon : vm.tape.OnTape) (hf : vm.fetch = some .closing)
    (hc : vm.tape.current = .ok b) (hb : b ≠ 0) :
    vm.next ch s = match vm.program.partnerLeft vm.ip with
      | some i => (.ok true, vm.moved (i + 1) vm.tape, s)
      | none   => (.error (.unmatchedClose vm.ip), vm, s) := by
  rw [next_operation hon hf]
  rw [execute, closeLoop, hc]
  dsimp only
  rw [if_neg hb]
  cases vm.program.partnerLeft vm.ip with
  | some i => rfl
  | none => rfl

/-- The fault of a step on what is no operation: a trace fails first where there is no name to
    show. -/
def foreignFault (tracing : Bool) (x : Element) : Fault :=
  match tracing, nameOf x with
  | true, .error f => f
  | _, _           => .foreign x

/-- An element that is no operation fails, and calls no stream. -/
theorem next_foreign_eq (hon : vm.tape.OnTape) (ch : Channels σ) (s : σ) (hf : vm.fetch = some x)
    (hx : ∀ op, x ≠ .operation op) :
    vm.next ch s = (.error (foreignFault vm.tracing x), vm, s) := by
  obtain ⟨w, hw⟩ := hon.exists_window
  rw [next, step, hf]
  dsimp only
  rw [trace?, trace, hon.current_eq, hw]
  cases x with
  | operation op => exact absurd rfl (hx op)
  | _ => cases vm.tracing <;> rfl

/-- A step on what is no operation fails, at its trace or without one. -/
theorem next_foreign (hon : vm.tape.OnTape) (ch : Channels σ) (s : σ) (hf : vm.fetch = some x)
    (hx : ∀ op, x ≠ .operation op) :
    ∃ f, (f = .foreign x ∨ f = .nameless x) ∧ vm.next ch s = (.error f, vm, s) := by
  refine ⟨_, ?_, next_foreign_eq hon ch s hf hx⟩
  cases x with
  | operation op => exact absurd rfl (hx op)
  | token t => cases vm.tracing <;> exact Or.inl rfl
  | _ =>
      cases vm.tracing with
      | false => exact Or.inl rfl
      | true => exact Or.inr rfl

-- ── All that a step can do ───────────────────────────────────────────────────────

/-- The ways in which a step of a machine on its tape can go: the result, and machine and streams
    after it. -/
inductive StepCase (ch : Channels σ) (vm : Machine) (s : σ) :
    Except Fault Bool × Machine × σ → Prop where
  /-- There is nothing left to execute. -/
  | ended (hf : vm.fetch = none) :
      StepCase ch vm s (.ok false, vm, s)
  /-- An elementary operation succeeds. -/
  | performed (op : Elementary) (t : Tape) (s' : σ)
      (hf : vm.fetch = some (.operation op.toOperation))
      (hp : op.perform ch vm.ip vm.tape s = (.ok t, s')) :
      StepCase ch vm s (.ok true, vm.moved (vm.ip + 1) t, s')
  /-- An elementary operation fails. -/
  | refused (op : Elementary) (f : Fault) (s' : σ)
      (hf : vm.fetch = some (.operation op.toOperation))
      (hp : op.perform ch vm.ip vm.tape s = (.error f, s')) :
      StepCase ch vm s (.error f, vm, s')
  /-- A loop is entered. -/
  | entered (b : UInt8) (hf : vm.fetch = some .opening) (hc : vm.tape.current = .ok b)
      (hb : b ≠ 0) :
      StepCase ch vm s (.ok true, vm.moved (vm.ip + 1) vm.tape, s)
  /-- A loop is left out. -/
  | skipped (j : Nat) (hf : vm.fetch = some .opening) (hc : vm.tape.current = .ok 0)
      (hj : vm.program.partnerRight vm.ip = some j) :
      StepCase ch vm s (.ok true, vm.moved (j + 1) vm.tape, s)
  /-- A loop is to be left out and has no end. -/
  | endless (hf : vm.fetch = some .opening) (hc : vm.tape.current = .ok 0)
      (hj : vm.program.partnerRight vm.ip = none) :
      StepCase ch vm s (.error (.unmatchedOpen vm.ip), vm, s)
  /-- A loop is over. -/
  | left (hf : vm.fetch = some .closing) (hc : vm.tape.current = .ok 0) :
      StepCase ch vm s (.ok true, vm.moved (vm.ip + 1) vm.tape, s)
  /-- A loop is repeated. -/
  | repeated (b : UInt8) (i : Nat) (hf : vm.fetch = some .closing)
      (hc : vm.tape.current = .ok b) (hb : b ≠ 0)
      (hi : vm.program.partnerLeft vm.ip = some i) :
      StepCase ch vm s (.ok true, vm.moved (i + 1) vm.tape, s)
  /-- A loop is to be repeated and has no beginning. -/
  | startless (b : UInt8) (hf : vm.fetch = some .closing) (hc : vm.tape.current = .ok b)
      (hb : b ≠ 0) (hi : vm.program.partnerLeft vm.ip = none) :
      StepCase ch vm s (.error (.unmatchedClose vm.ip), vm, s)
  /-- There is no operation to execute, but something else. -/
  | foreign (x : Element) (f : Fault) (hf : vm.fetch = some x) (hx : ∀ op, x ≠ .operation op)
      (hk : f = .foreign x ∨ f = .nameless x) :
      StepCase ch vm s (.error f, vm, s)

/-- A step of a machine on its tape goes one of the listed ways. -/
theorem stepCase (hon : vm.tape.OnTape) (ch : Channels σ) (s : σ) :
    StepCase ch vm s (vm.next ch s) := by
  have hc := hon.current_eq
  cases hf : vm.fetch with
  | none =>
      rw [next_of_fetch_eq_none hf]
      exact .ended hf
  | some x =>
      by_cases hx : ∃ op, x = .operation op
      · obtain ⟨op, rfl⟩ := hx
        rcases op.elementary_or_bracket with ⟨e, rfl⟩ | rfl | rfl
        · rw [next_elementary hon hf]
          rcases hp : e.perform ch vm.ip vm.tape s with ⟨f | t, s'⟩
          · exact .refused e f s' hf hp
          · exact .performed e t s' hf hp
        · by_cases hb : vm.tape.get hon.index = 0
          · rw [hb] at hc
            rw [next_skip hon hf hc]
            cases hj : vm.program.partnerRight vm.ip with
            | none => exact .endless hf hc hj
            | some j => exact .skipped j hf hc hj
          · rw [next_enter hon hf hc hb]
            exact .entered _ hf hc hb
        · by_cases hb : vm.tape.get hon.index = 0
          · rw [hb] at hc
            rw [next_leave hon hf hc]
            exact .left hf hc
          · rw [next_repeat hon hf hc hb]
            cases hi : vm.program.partnerLeft vm.ip with
            | none => exact .startless _ hf hc hb hi
            | some i => exact .repeated _ i hf hc hb hi
      · have hx' : ∀ op, x ≠ .operation op := fun op h => hx ⟨op, h⟩
        obtain ⟨f, hk, hn⟩ := next_foreign hon ch s hf hx'
        rw [hn]
        exact .foreign x f hf hx' hk

/-- A step ends the program exactly where there is nothing to fetch. -/
theorem next_eq_false_iff (hon : vm.tape.OnTape) (ch : Channels σ) (s : σ) :
    (vm.next ch s).1 = .ok false ↔ vm.fetch = none := by
  constructor
  · intro h
    have hcase := stepCase hon ch s
    generalize vm.next ch s = r at hcase h
    cases hcase with
    | ended hf => exact hf
    | _ => exact nomatch h
  · intro hf
    rw [next_of_fetch_eq_none hf]

/-- A step never takes the pointer off the tape. -/
theorem onTape_next (hon : vm.tape.OnTape) (ch : Channels σ) (s : σ) :
    (vm.next ch s).2.1.tape.OnTape := by
  have hcase := stepCase hon ch s
  generalize vm.next ch s = r at hcase
  cases hcase with
  | performed op t s' hf hp => exact (Elementary.onTape_of_perform hon hp).1
  | _ => exact hon

end Machine

end TapeMachine
