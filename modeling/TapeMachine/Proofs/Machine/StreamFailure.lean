import TapeMachine.Diagnostic
import TapeMachine.Proofs.Machine.Reports

/-!
# Stream failures

Three calls of a stream can make a run fail: the read of `input`, the write of `output` and the
flush at the end of the program. Each of them comes to nothing in its own way, and each may raise
errors of two families that overlap and that the machine answers for, and of any other class, which
it does not. Here it is told **exactly which answers are failures**, and of which kind.

* `FailsAs` — when an answer is a stream failure. It looks at nothing but the answer, and
  `ReadFails`, `WriteFails` and `FlushFails` are what it comes to for each of the three calls.
* `ClassifiesStep` — what a step makes of the answer to its call.
* `outcome_run_of_fetch_eq_none` — at the end of the program only the answer to the flush is left
  to decide.
* `aborts_run` — an error of executing a program is logged once, also if a stream has raised it, and
  nothing else is logged as the failure of a run.
-/

namespace TapeMachine

-- ── Answers that come to nothing ─────────────────────────────────────────────────

/-- There is nothing in what was handed over. -/
def Chunk.IsEmpty : Chunk → Prop
  | bytes bs => bs = []
  | text s   => s = ""
  | items vs => vs = []
  | nothing  => True

/-- There is no first element exactly in what is empty. -/
theorem Chunk.first?_eq_none_iff (chunk : Chunk) : chunk.first? = none ↔ chunk.IsEmpty := by
  cases chunk with
  | bytes bs =>
      rw [first?, Option.map_eq_none_iff, List.head?_eq_none_iff]
      exact Iff.rfl
  | text s =>
      rw [first?, Option.map_eq_none_iff, List.head?_eq_none_iff, String.toList_eq_nil_iff]
      exact Iff.rfl
  | items vs =>
      rw [first?, Option.map_eq_none_iff, List.head?_eq_none_iff]
      exact Iff.rfl
  | nothing => exact ⟨fun _ => trivial, fun _ => rfl⟩

/-- The value equals zero, as a number or as the flag that counts for one. -/
def Value.EqualsZero (v : Value) : Prop :=
  v = .flag false ∨ v = .whole 0 ∨ ∃ x, v = .float x ∧ (x == 0) = true

theorem Value.isZero_eq_true_iff (v : Value) : v.isZero = true ↔ v.EqualsZero := by
  cases v with
  | flag b => simp [isZero, EqualsZero]
  | whole n => simp [isZero, EqualsZero]
  | float x => simp [isZero, EqualsZero]
  | _ => simp [isZero, EqualsZero]

-- ── Answers that are failures ────────────────────────────────────────────────────

/-- The answer to a call is a stream failure: it raises an error of a handled family, or hands over
    something that comes to nothing in the way of the call. -/
inductive FailsAs {α : Type} (void : α → StreamFailure → Prop) :
    Except Raised α → StreamFailure → Prop where
  | raised (e : Raised) (hh : e.isHandled = true) : FailsAs void (.error e) (.raised e)
  | void (a : α) (why : StreamFailure) (hv : void a why) : FailsAs void (.ok a) why

/-- A read comes to nothing if it hands over nothing. -/
def ReadFails : Except Raised Chunk → StreamFailure → Prop :=
  FailsAs fun chunk why => chunk.IsEmpty ∧ why = .exhausted

/-- A write comes to nothing if its report equals zero. A report that is absent does not. -/
def WriteFails : Except Raised Value → StreamFailure → Prop :=
  FailsAs fun report why => report.EqualsZero ∧ why = .refused

/-- A flush hands over nothing that it could fail by. -/
def FlushFails : Except Raised Unit → StreamFailure → Prop :=
  FailsAs fun _ _ => False

section

variable {α : Type} {void : α → StreamFailure → Prop} {e : Raised} {a : α} {why : StreamFailure}
  {ip jp : Nat}

/-- A raised error is a failure exactly if its family is a handled one, and the failure is then that
    error. -/
theorem failsAs_error_iff :
    FailsAs void (.error e) why ↔ e.isHandled = true ∧ why = .raised e := by
  constructor
  · intro h
    cases h with
    | raised e hh => exact ⟨hh, rfl⟩
  · rintro ⟨hh, rfl⟩
    exact .raised e hh

theorem failsAs_ok_iff : FailsAs void (.ok a) why ↔ void a why := by
  constructor
  · intro h
    cases h with
    | void a why hv => exact hv
  · exact .void a why

/-- A raised error becomes a stream failure exactly if its family is a handled one. -/
theorem ofRaised_eq_stream_iff : Fault.ofRaised ip e = .stream jp why
    ↔ jp = ip ∧ FailsAs void (.error e) why := by
  rw [failsAs_error_iff]
  rcases Fault.ofRaised_cases ip e with ⟨hh, he⟩ | ⟨hh, he⟩
  · rw [he, hh]
    constructor
    · intro h
      obtain ⟨rfl, rfl⟩ := Fault.stream.inj h
      exact ⟨rfl, rfl, rfl⟩
    · rintro ⟨rfl, -, rfl⟩
      rfl
  · rw [he, hh]
    constructor
    · intro h
      cases h
    · rintro ⟨-, h, -⟩
      cases h

/-- Of any other family it passes through. -/
theorem ofRaised_of_not_isHandled (hh : e.isHandled = false) (ip : Nat) :
    Fault.ofRaised ip e = .passed e := by
  rcases Fault.ofRaised_cases ip e with ⟨hh', -⟩ | ⟨-, he⟩
  · exact nomatch hh.symm.trans hh'
  · exact he

end

namespace Machine

variable {σ : Type} {ch : Channels σ} {vm vm' : Machine} {s s' : σ} {n k limit : Nat} {f : Fault}
  {b : UInt8} {ip : Nat} {why : StreamFailure} {e : Raised}

-- ── Steps ────────────────────────────────────────────────────────────────────────

/-- **A step on `input` is a stream failure exactly if its read is one.** -/
theorem input_fails_iff (hon : vm.tape.OnTape) (hf : vm.fetch = some (.operation .input)) :
    (vm.step ch s).result = .error (.stream ip why) ↔ ip = vm.ip ∧ ReadFails (ch.read s).1 why := by
  show (vm.next ch s).1 = _ ↔ _
  rw [next_input hon hf]
  rcases (ch.read s).1 with e | chunk
  · dsimp only
    rw [Except.error.injEq]
    exact ofRaised_eq_stream_iff
  · dsimp only
    rw [ReadFails, failsAs_ok_iff, ← chunk.first?_eq_none_iff]
    rcases chunk.first? with _ | e | v
    · dsimp only
      rw [Except.error.injEq, Fault.stream.injEq]
      tauto
    · dsimp only
      rw [Except.error.injEq]
      tauto
    · dsimp only
      tauto

/-- **A step on `output` is a stream failure exactly if its write is one.** -/
theorem output_fails_iff (hon : vm.tape.OnTape) (hf : vm.fetch = some (.operation .output))
    (hc : vm.tape.current = .ok b) :
    (vm.step ch s).result = .error (.stream ip why)
      ↔ ip = vm.ip ∧ WriteFails (ch.write b s).1 why := by
  show (vm.next ch s).1 = _ ↔ _
  rw [next_output hon hf hc]
  rcases (ch.write b s).1 with e | report
  · dsimp only
    rw [Except.error.injEq]
    exact ofRaised_eq_stream_iff
  · dsimp only
    rw [WriteFails, failsAs_ok_iff, ← report.isZero_eq_true_iff]
    cases report.isZero with
    | true =>
        rw [if_pos rfl, Except.error.injEq, Fault.stream.injEq]
        tauto
    | false =>
        rw [if_neg Bool.false_ne_true]
        tauto

/-- An error of neither handled family passes through unchanged. -/
theorem step_passes (hon : vm.tape.OnTape) (he : CallRaises ch vm s e) (hh : e.isHandled = false) :
    (vm.step ch s).result = .error (.passed e) := by
  show (vm.next ch s).1 = _
  rcases he with ⟨hf, hr⟩ | ⟨hf, b, hc, hw⟩
  · rw [next_input hon hf, hr]
    exact congrArg Except.error (ofRaised_of_not_isHandled hh vm.ip)
  · rw [next_output hon hf hc, hw]
    exact congrArg Except.error (ofRaised_of_not_isHandled hh vm.ip)

/-- No other operation fails with a stream failure. -/
theorem fetch_of_stream_failure (hon : vm.tape.OnTape)
    (hr : (vm.step ch s).result = .error (.stream ip why)) :
    vm.fetch = some (.operation .input) ∨ vm.fetch = some (.operation .output) := by
  have hhalted := haltedBy_of_step hon hr rfl
  cases hhalted with
  | transfer why hf => exact hf
  | flush e he =>
      have hn : vm.next ch s = _ := next_of_fetch_eq_none he.1.fetch_eq_none
      exact nomatch (congrArg Prod.fst hn).symm.trans hr

/-- A read that hands over a number fills the current cell with it. -/
theorem next_of_first? {chunk : Chunk} {v : Int} (hon : vm.tape.OnTape)
    (hf : vm.fetch = some (.operation .input)) (hr : (ch.read s).1 = .ok chunk)
    (hv : chunk.first? = some (.ok v)) :
    vm.next ch s = (.ok true, vm.moved (vm.ip + 1) (vm.tape.set hon.index (UInt8.ofInt v)),
      (ch.read s).2) := by
  rw [next_input hon hf, hr]
  dsimp only
  rw [hv]

/-- A step on `input` succeeds exactly if its read hands over something that starts with a
    number. -/
theorem input_succeeds_iff (hon : vm.tape.OnTape) (hf : vm.fetch = some (.operation .input)) :
    (vm.step ch s).result = .ok true
      ↔ ∃ chunk v, (ch.read s).1 = .ok chunk ∧ chunk.first? = some (.ok v) := by
  constructor
  · intro h
    have hres : (vm.next ch s).1 = .ok true := h
    rw [next_input hon hf] at hres
    rcases hr : (ch.read s).1 with e | chunk
    · rw [hr] at hres
      exact nomatch hres
    · rw [hr] at hres
      dsimp only at hres
      rcases hv : chunk.first? with _ | e | v
      · rw [hv] at hres
        exact nomatch hres
      · rw [hv] at hres
        exact nomatch hres
      · exact ⟨chunk, v, rfl, hv⟩
  · rintro ⟨chunk, v, hr, hv⟩
    exact congrArg Prod.fst (next_of_first? hon hf hr hv)

/-- A step on `output` succeeds exactly if the report of its write does not equal zero. -/
theorem output_succeeds_iff (hon : vm.tape.OnTape) (hf : vm.fetch = some (.operation .output))
    (hc : vm.tape.current = .ok b) :
    (vm.step ch s).result = .ok true
      ↔ ∃ report, (ch.write b s).1 = .ok report ∧ ¬ report.EqualsZero := by
  show (vm.next ch s).1 = _ ↔ _
  rw [next_output hon hf hc]
  rcases (ch.write b s).1 with e | report
  · simp
  · simp only [Except.ok.injEq, exists_eq_left', ← report.isZero_eq_true_iff]
    cases report.isZero with
    | true => simp
    | false => simp

-- ── The end of the program ───────────────────────────────────────────────────────

theorem fst_flush (ch : Channels σ) (ip : Nat) (s : σ) : (flush ch ip s).1 = match ch.flush? with
    | none       => .ok ()
    | some flush => (flush s).1.mapError (.ofRaised ip) := by
  rw [flush]
  cases ch.flush? with
  | none => rfl
  | some flush =>
      dsimp only
      rcases flush s with ⟨_ | _, s'⟩
      · rfl
      · rfl

/-- At the end of the program only the flush is left to decide how the run ends. -/
theorem outcome_run_of_fetch_eq_none (ha : vm.reset.after ch k s = some (vm', s')) (hk : k < limit)
    (hf : vm'.fetch = none) :
    (vm.run ch limit s).outcome = match (flush ch vm'.ip s').1 with
      | .ok ()   => .finished
      | .error f => .failed f := by
  obtain ⟨ho, hm, hs, -⟩ := course_of_stop ha (next_of_fetch_eq_none hf) nofun hk
  rw [run_eq_conclude, conclude, ho, hm, hs]
  dsimp only [Outcome.ofResult]
  rcases flush ch vm'.ip s' with ⟨f | _, s''⟩
  · rfl
  · rfl

/-- The flush at the end of the program fails the run exactly if it raises an error of a handled
    family. -/
theorem flush_fails_iff (ha : vm.reset.after ch k s = some (vm', s')) (hk : k < limit)
    (hf : vm'.fetch = none) {flush : σ → Except Raised Unit × σ} (hflush : ch.flush? = some flush) :
    (vm.run ch limit s).outcome = .failed (.stream ip why)
      ↔ ip = vm'.ip ∧ FlushFails (flush s').1 why := by
  rw [outcome_run_of_fetch_eq_none ha hk hf, fst_flush, hflush]
  dsimp only
  rcases (flush s').1 with e | _
  · show Outcome.failed (.ofRaised vm'.ip e) = _ ↔ _
    rw [Outcome.failed.injEq]
    exact ofRaised_eq_stream_iff
  · rw [FlushFails, failsAs_ok_iff]
    constructor
    · intro h
      exact nomatch h
    · rintro ⟨-, h⟩
      exact h.elim

/-- An error of neither handled family passes through the flush unchanged. -/
theorem flush_passes (ha : vm.reset.after ch k s = some (vm', s')) (hk : k < limit)
    (hf : vm'.fetch = none) {flush : σ → Except Raised Unit × σ} (hflush : ch.flush? = some flush)
    (he : (flush s').1 = .error e) (hh : e.isHandled = false) :
    (vm.run ch limit s).outcome = .failed (.passed e) := by
  rw [outcome_run_of_fetch_eq_none ha hk hf, fst_flush, hflush]
  dsimp only
  rw [he]
  exact congrArg Outcome.failed (ofRaised_of_not_isHandled hh vm'.ip)

-- ── Whole runs ───────────────────────────────────────────────────────────────────

/-- A step of a run that fails ends the run, and leaves the machine as it came to it. -/
theorem run_of_step_fails (ha : vm.reset.after ch k s = some (vm', s')) (hk : k < limit)
    (hr : (vm'.step ch s').result = .error f) :
    (vm.run ch limit s).outcome = .failed f ∧ (vm.run ch limit s).machine = vm'
      ∧ (vm.run ch limit s).steps = k := by
  have hn : vm'.next ch s' = (.error f, vm', (vm'.next ch s').2.2) := by
    have hne : (vm'.next ch s').1 ≠ .ok true := by
      rw [show (vm'.next ch s').1 = .error f from hr]
      exact nofun
    exact Prod.ext hr (Prod.ext (machine_next_of_ne hne) rfl)
  obtain ⟨ho, hm, -, hsteps⟩ := course_of_stop ha hn nofun hk
  refine ⟨outcome_run_of_course ho, ?_, ?_⟩
  · rw [run_eq_conclude, machine_conclude]
    exact hm
  · rw [run_eq_conclude, steps_conclude]
    exact hsteps

end Machine

-- ── What is told about a failure ─────────────────────────────────────────────────

/-- The report of a call that failed at a place of the program: of which kind the failure is, its
    particulars in round brackets if there are any, its error number, and the class of the error
    behind it. -/
def Diagnostic.ofCall (ip : Nat) (kind detail : String) (errno : Value) (cause? : Option String) :
    Diagnostic :=
  ⟨"IoFailure",
    "I/O failure at operation " ++ toString ip ++ ": " ++ kind
      ++ (if detail = "" then "" else " (" ++ detail ++ ")"),
    some { family := .stream, kind? := some (.words kind), ip? := some (.whole ip),
           errno? := some errno, cause? }⟩

/-- A stream failure is reported as the failed call that it is. -/
theorem Diagnostic.ofFault_stream (ip : Nat) (why : StreamFailure) :
    ofFault (.stream ip why)
      = ofCall ip why.kind why.detail why.number (why.cause?.map Raised.name) := by
  have hmessage : Fault.streamMessage (.whole ip) (.words why.kind) (.words why.detail)
      = "I/O failure at operation " ++ toString ip ++ ": " ++ why.kind
        ++ (if why.detail = "" then "" else " (" ++ why.detail ++ ")") := by
    have hip : (Value.whole ip).text = toString ip := rfl
    rw [Fault.streamMessage, hip]
    by_cases hd : why.detail = ""
    · simp [Value.isNothing, Value.text, hd]
    · simp [Value.isNothing, Value.text, hd, String.append_assoc]
  rw [ofFault, stream, hmessage]
  rfl

/-- Whether the event tells that a run failed. -/
def Event.isAborted : Event → Bool
  | aborted .. => true
  | _          => false

/-- What someone who asks for a severity finds about failed runs among some events. -/
def Event.aborts (level : Severity) (events : Array Event) : List Event :=
  events.toList.filter fun e => e.isAborted && level.rank ≤ e.severity.rank

namespace Machine

variable {σ : Type} {ch : Channels σ} {vm : Machine} {s : σ} {limit : Nat} {f : Fault}

/-- **The failure of a run is logged once**, if it is an error of executing the program, and
    otherwise not at all. -/
theorem aborts_run {level : Severity} (hl : level.rank ≤ Severity.warning.rank) :
    Event.aborts level (vm.run ch limit s).events = match (vm.run ch limit s).outcome with
      | .failed f => if f.isExecution then [.aborted (vm.run ch limit s).steps f] else []
      | _         => [] := by
  have hbefore : (Event.started vm.program.size vm.tape.size
      :: (vm.reset.trail ch limit s).filterMap report?).filter (fun e =>
        e.isAborted && level.rank ≤ e.severity.rank) = [] := by
    rw [List.filter_eq_nil_iff]
    intro e he
    rcases List.mem_cons.mp he with rfl | he
    · exact Bool.false_ne_true
    · have htrace := isTrace_of_mem_reports he
      cases e with
      | traced => exact Bool.false_ne_true
      | _ => exact nomatch htrace
  rw [Event.aborts, events_run, List.filter_append, hbefore, List.nil_append]
  cases (vm.run ch limit s).outcome with
  | finished => rfl
  | failed f =>
      dsimp only [Outcome.closing]
      cases f.isExecution with
      | true => exact List.filter_cons_of_pos (decide_eq_true hl)
      | false => rfl
  | unfinished => rfl

-- ── What holds of every machine ──────────────────────────────────────────────────

/-- What a step of a machine makes of the answer to its call. -/
structure ClassifiesStep (ch : Channels σ) (vm : Machine) (s : σ) : Prop where
  /-- `input` fails with a stream failure, at its place, exactly if its read is one. -/
  input_fails    : vm.fetch = some (.operation .input) → ∀ ip why,
    (vm.step ch s).result = .error (.stream ip why) ↔ ip = vm.ip ∧ ReadFails (ch.read s).1 why
  /-- `input` succeeds exactly if its read hands over something that starts with a number. -/
  input_succeeds : vm.fetch = some (.operation .input) → ((vm.step ch s).result = .ok true ↔
    ∃ chunk v, (ch.read s).1 = .ok chunk ∧ chunk.first? = some (.ok v))
  /-- That number is then the current cell, modulo 256. -/
  filled         : vm.fetch = some (.operation .input) → ∀ chunk v, (ch.read s).1 = .ok chunk →
    chunk.first? = some (.ok v) →
    ∃ c, (vm.step ch s).machine.tape.current = .ok c ∧ (c.toNat : Int) = v % 256
  /-- `output` writes the current cell. It fails with a stream failure, at its place, exactly if the
      write is one, and succeeds exactly if the report does not equal zero. -/
  output         : vm.fetch = some (.operation .output) → ∃ b, vm.tape.current = .ok b
    ∧ (∀ ip why, (vm.step ch s).result = .error (.stream ip why) ↔
      ip = vm.ip ∧ WriteFails (ch.write b s).1 why)
    ∧ ((vm.step ch s).result = .ok true ↔
      ∃ report, (ch.write b s).1 = .ok report ∧ ¬ report.EqualsZero)
  /-- No other operation fails with a stream failure. -/
  only           : ∀ ip why, (vm.step ch s).result = .error (.stream ip why) →
    vm.fetch = some (.operation .input) ∨ vm.fetch = some (.operation .output)
  /-- A raised error of neither handled family passes through unchanged. -/
  passes         : ∀ e, CallRaises ch vm s e → e.isHandled = false →
    (vm.step ch s).result = .error (.passed e)

/-- On the tape every step is classified. -/
theorem classifiesStep (hon : vm.tape.OnTape) (ch : Channels σ) (s : σ) :
    ClassifiesStep ch vm s where
  input_fails    := fun hf _ _ => input_fails_iff hon hf
  input_succeeds := input_succeeds_iff hon
  filled         := by
    intro hf chunk v hr hv
    have hm : (vm.step ch s).machine = _ := congrArg (·.2.1) (next_of_first? hon hf hr hv)
    refine ⟨UInt8.ofInt v, ?_, ?_⟩
    · rw [hm]
      exact hon.current_set _
    · rw [Tape.toNat_ofInt]
      omega
  output         := fun hf => ⟨_, hon.current_eq, fun _ _ => output_fails_iff hon hf hon.current_eq,
    output_succeeds_iff hon hf hon.current_eq⟩
  only           := fun _ _ => fetch_of_stream_failure hon
  passes         := fun _ => step_passes hon

/-- How the runs of a machine fail by the streams, and what is told about it. -/
structure ClassifiesFailures (ch : Channels σ) (vm : Machine) (s : σ) : Prop where
  /-- The next step is classified, if the pointer is on the tape. -/
  step           : vm.tape.OnTape → ClassifiesStep ch vm s
  /-- Every step of a run is classified. -/
  moments        : ∀ k vm' s', vm.reset.after ch k s = some (vm', s') → ClassifiesStep ch vm' s'
  /-- A step of a run that fails ends the run, at its place and with its fault. -/
  ends           : ∀ limit k vm' s' f, vm.reset.after ch k s = some (vm', s') → k < limit →
    (vm'.step ch s').result = .error f →
    (vm.run ch limit s).outcome = .failed f ∧ (vm.run ch limit s).machine = vm'
      ∧ (vm.run ch limit s).steps = k
  /-- Where its program has ended a run fails exactly if its flush raises an error: of a handled
      family, as a stream failure at this place, and of any other, unchanged. -/
  flush          : ∀ limit k vm' s' flush, vm.reset.after ch k s = some (vm', s') → k < limit →
    vm'.fetch = none → ch.flush? = some flush →
    vm'.Ended
    ∧ (∀ ip why, (vm.run ch limit s).outcome = .failed (.stream ip why) ↔
      ip = vm'.ip ∧ FlushFails (flush s').1 why)
    ∧ ∀ e, (flush s').1 = .error e → e.isHandled = false →
      (vm.run ch limit s).outcome = .failed (.passed e)
  /-- A stream failure of a run is that of the step it has come to, or of the flush. -/
  origin         : ∀ limit ip why, (vm.run ch limit s).outcome = .failed (.stream ip why) →
    ip = (vm.run ch limit s).machine.ip
    ∧ ∃ s', vm.reset.after ch (vm.run ch limit s).steps s = some ((vm.run ch limit s).machine, s')
      ∧ (((vm.run ch limit s).machine.step ch s').result = .error (.stream ip why)
        ∨ ((vm.run ch limit s).machine.Ended
          ∧ ∃ flush, ch.flush? = some flush ∧ FlushFails (flush s').1 why))
  /-- Of a raised error the report shows class, number and text, and the error is its cause. -/
  told_raised    : ∀ ip e, Diagnostic.ofFault (.stream ip (.raised e))
      = .ofCall ip e.name e.text e.number (some e.name)
    ∧ (StreamFailure.raised e).cause? = some e
  /-- Of a stream that gives or accepts nothing the report shows which it is, and there is neither
      a number nor a cause. -/
  told_void      : ∀ ip, Diagnostic.ofFault (.stream ip .exhausted)
      = .ofCall ip "UnexpectedEof" "input stream exhausted" .absent none
    ∧ Diagnostic.ofFault (.stream ip .refused)
      = .ofCall ip "WriteZero" "output stream accepted no data" .absent none
  /-- Whoever asks for warnings, or for more, finds an error of executing the program logged once,
      be it the machine's own or one that a stream has raised. -/
  logged         : ∀ limit f, (vm.run ch limit s).outcome = .failed f → f.isExecution = true →
    ∀ level : Severity, level.rank ≤ Severity.warning.rank →
      Event.aborts level (vm.run ch limit s).events = [.aborted (vm.run ch limit s).steps f]
  /-- An error of another kind that passes through is not logged as the failure of the run. -/
  silent         : ∀ limit e, (vm.run ch limit s).outcome = .failed (.passed e) →
    e.isExecution = false → ∀ k f, .aborted k f ∉ (vm.run ch limit s).events

/-- The place of a stream failure is that of the machine. -/
theorem ip_of_stream_failure {ip : Nat} {why : StreamFailure} (hon : vm.tape.OnTape)
    (hr : (vm.step ch s).result = .error (.stream ip why)) : ip = vm.ip := by
  have hplace := (haltedBy_of_step hon hr rfl).ip?_eq fun _ h => nomatch h
  exact Int.ofNat.inj (Value.whole.inj (Option.some.inj hplace))

/-- **Every machine tells stream failures from everything else by the answers to its calls
    alone.** -/
theorem stream_failures_classified (ch : Channels σ) (vm : Machine) (s : σ) :
    ClassifiesFailures ch vm s := by
  have hon {k vm' s'} (ha : vm.reset.after ch k s = some (vm', s')) : vm'.tape.OnTape :=
    onTape_after Tape.onTape_reset ha
  refine ⟨fun hon => classifiesStep hon ch s, ?_, ?_, ?_, ?_, ?_, ?_, ?_, ?_⟩
  · intro k vm' s' ha
    exact classifiesStep (hon ha) ch s'
  · intro limit k vm' s' f ha hk hr
    exact run_of_step_fails ha hk hr
  · intro limit k vm' s' flush ha hk hf hflush
    exact ⟨ended_of_fetch (ip_le_after ha) hf, fun _ _ => flush_fails_iff ha hk hf hflush,
      fun _ => flush_passes ha hk hf hflush⟩
  · intro limit ip why ho
    obtain ⟨s', ha, hr | ⟨e, ⟨hended, flush, hflush, he⟩, heq⟩⟩ := moment_of_failed ho
    · exact ⟨ip_of_stream_failure (hon ha) hr, s', ha, Or.inl hr⟩
    · obtain ⟨hip, hfails⟩ := ofRaised_eq_stream_iff.mp heq.symm
      rw [← he] at hfails
      exact ⟨hip, s', ha, Or.inr ⟨hended, flush, hflush, hfails⟩⟩
  · intro ip e
    exact ⟨Diagnostic.ofFault_stream ip (.raised e), rfl⟩
  · intro ip
    exact ⟨Diagnostic.ofFault_stream ip .exhausted, Diagnostic.ofFault_stream ip .refused⟩
  · intro limit f ho hexec level hl
    rw [aborts_run hl, ho]
    exact if_pos hexec
  · intro limit e ho hexec k f hmem
    obtain ⟨hf, hexec', -⟩ := aborted_mem_events_iff.mp hmem
    obtain rfl := Outcome.failed.inj (ho.symm.trans hf)
    exact nomatch hexec.symm.trans hexec'

/-- Not every error of another class goes unlogged: an input may raise the error of a bracket. Nor
    is it always at the end of the program that a flush fails: an empty place ends the program
    before. -/
theorem not_all_passed_errors_unlogged :
    (¬ ∀ (vm : Machine) (s : Prepared) (limit : Nat) (e : Raised), e.isHandled = false →
        (vm.run .prepared limit s).outcome = .failed (.passed e) →
          ∀ k f, .aborted k f ∉ (vm.run .prepared limit s).events)
    ∧ ¬ ∀ (vm : Machine) (s : Prepared) (limit ip : Nat) (e : Raised),
        (vm.run .prepared limit s).machine.fetch = none →
          (vm.run .prepared limit s).outcome = .failed (.stream ip (.raised e)) →
            ip = vm.program.size := by
  constructor
  · intro hall
    let raised : Raised := (Diagnostic.unmatchedOpen (.whole 17)).toRaised
    have hsilent := hall ((fresh 1 Nat.one_pos false).load (.ofOperations [.input]))
      { read := .error raised } 9 raised rfl rfl
    exact hsilent 0 (.passed raised) (aborted_mem_events_iff.mpr ⟨rfl, rfl, rfl⟩)
  · intro hall
    let broken : Raised := { kind := .system .general, args := [.words "boom"] }
    have hsize := hall
      ((fresh 1 Nat.one_pos false).load #[.operation .increment, .empty, .operation .increment])
      { flush := .error broken } 9 1 broken rfl rfl
    exact absurd hsize (by decide)

end Machine

end TapeMachine
