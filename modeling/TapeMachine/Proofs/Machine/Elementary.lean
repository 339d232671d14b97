import TapeMachine.Proofs.Tape.OnTape
import TapeMachine.Structured

/-!
# Elementary operations

What an operation that is no bracket can do to a tape and the streams. `PerformCase` lists the ways
in which it can go when the pointer is on the tape: there the tape itself never fails, so **every
failure is one of the single stream call** that `input` and `output` make. `performCase` says that
there are no other ways.
-/

namespace TapeMachine

theorem Operation.elementary_or_bracket (op : Operation) :
    (∃ e : Elementary, op = e.toOperation) ∨ op = .loopForward ∨ op = .loopBack := by
  cases op with
  | increment   => exact Or.inl ⟨.increment, rfl⟩
  | decrement   => exact Or.inl ⟨.decrement, rfl⟩
  | next        => exact Or.inl ⟨.next, rfl⟩
  | previous    => exact Or.inl ⟨.previous, rfl⟩
  | input       => exact Or.inl ⟨.input, rfl⟩
  | output      => exact Or.inl ⟨.output, rfl⟩
  | loopForward => exact Or.inr (Or.inl rfl)
  | loopBack    => exact Or.inr (Or.inr rfl)

/-- What becomes of a raised error, by its family. -/
theorem Fault.ofRaised_cases (ip : Nat) (e : Raised) :
    (e.isHandled = true ∧ ofRaised ip e = .stream ip (.raised e))
      ∨ (e.isHandled = false ∧ ofRaised ip e = .passed e) := by
  rw [ofRaised]
  cases e.isHandled with
  | true => exact Or.inl ⟨rfl, rfl⟩
  | false => exact Or.inr ⟨rfl, rfl⟩

namespace Elementary

theorem toOperation_ne (op : Elementary) :
    op.toOperation ≠ .loopForward ∧ op.toOperation ≠ .loopBack := by
  cases op <;> exact ⟨nofun, nofun⟩

theorem toOperation_inj {op op' : Elementary} (h : op.toOperation = op'.toOperation) :
    op = op' := by
  cases op <;> cases op' <;> first | rfl | exact nomatch h

variable {σ : Type} {ch : Channels σ} {ip : Nat} {t t' : Tape} {s s' : σ} {op : Elementary}

/-- The ways in which an elementary operation on the tape can go: the tape after it or its fault,
    and the streams after it. -/
inductive PerformCase (ch : Channels σ) (ip : Nat) (t : Tape) (hon : t.OnTape) (s : σ) :
    Elementary → Except Fault Tape × σ → Prop where
  | increment :
      PerformCase ch ip t hon s .increment (.ok (t.set hon.index (t.get hon.index + 1)), s)
  | decrement :
      PerformCase ch ip t hon s .decrement (.ok (t.set hon.index (t.get hon.index - 1)), s)
  | next :
      PerformCase ch ip t hon s .next (.ok t.moveNext, s)
  | previous :
      PerformCase ch ip t hon s .previous (.ok t.movePrevious, s)
  /-- The input gives an element, which is a number or counts as one. -/
  | read (chunk : Chunk) (v : Int) (s' : σ) (hr : ch.read s = (.ok chunk, s'))
      (hv : chunk.first? = some (.ok v)) :
      PerformCase ch ip t hon s .input (.ok (t.set hon.index (UInt8.ofInt v)), s')
  /-- The input gives something that is no number. -/
  | misfit (chunk : Chunk) (e : Raised) (s' : σ) (hr : ch.read s = (.ok chunk, s'))
      (hv : chunk.first? = some (.error e)) :
      PerformCase ch ip t hon s .input (.error (.passed e), s')
  /-- The input gives nothing. -/
  | exhausted (chunk : Chunk) (s' : σ) (hr : ch.read s = (.ok chunk, s'))
      (hv : chunk.first? = none) :
      PerformCase ch ip t hon s .input (.error (.stream ip .exhausted), s')
  /-- The input raises an error. -/
  | unreadable (e : Raised) (s' : σ) (hr : ch.read s = (.error e, s')) :
      PerformCase ch ip t hon s .input (.error (.ofRaised ip e), s')
  /-- The output takes the current cell. -/
  | written (report : Value) (s' : σ)
      (hw : ch.write (t.get hon.index) s = (.ok report, s')) (hz : report.isZero = false) :
      PerformCase ch ip t hon s .output (.ok t, s')
  /-- The output takes nothing. -/
  | refused (report : Value) (s' : σ)
      (hw : ch.write (t.get hon.index) s = (.ok report, s')) (hz : report.isZero = true) :
      PerformCase ch ip t hon s .output (.error (.stream ip .refused), s')
  /-- The output raises an error. -/
  | unwritable (e : Raised) (s' : σ) (hw : ch.write (t.get hon.index) s = (.error e, s')) :
      PerformCase ch ip t hon s .output (.error (.ofRaised ip e), s')

theorem perform_increment (hon : t.OnTape) (ch : Channels σ) (ip : Nat) (s : σ) :
    increment.perform ch ip t s = (.ok (t.set hon.index (t.get hon.index + 1)), s) := by
  rw [perform, Tape.increment, hon.here_eq]
  rfl

theorem perform_decrement (hon : t.OnTape) (ch : Channels σ) (ip : Nat) (s : σ) :
    decrement.perform ch ip t s = (.ok (t.set hon.index (t.get hon.index - 1)), s) := by
  rw [perform, Tape.decrement, hon.here_eq]
  rfl

/-- An elementary operation on the tape goes one of the listed ways. -/
theorem performCase (ch : Channels σ) (ip : Nat) (hon : t.OnTape) (s : σ) (op : Elementary) :
    PerformCase ch ip t hon s op (op.perform ch ip t s) := by
  cases op with
  | increment =>
      rw [perform_increment hon]
      exact .increment
  | decrement =>
      rw [perform_decrement hon]
      exact .decrement
  | next => exact .next
  | previous => exact .previous
  | input =>
      rw [perform]
      rcases hr : ch.read s with ⟨e | chunk, s'⟩
      · exact .unreadable e s' hr
      · dsimp only
        rcases hv : chunk.first? with _ | e | v
        · exact .exhausted chunk s' hr hv
        · exact .misfit chunk e s' hr hv
        · dsimp only
          rw [hon.write_eq]
          exact .read chunk v s' hr hv
  | output =>
      rw [perform, hon.current_eq]
      dsimp only
      rcases hw : ch.write (t.get hon.index) s with ⟨e | report, s'⟩
      · exact .unwritable e s' hw
      · dsimp only
        cases hz : report.isZero with
        | false =>
            rw [if_neg Bool.false_ne_true]
            exact .written report s' hw hz
        | true =>
            rw [if_pos rfl]
            exact .refused report s' hw hz

/-- Reading is one call, and only its answer decides how it goes. -/
theorem perform_input (ch : Channels σ) (ip : Nat) (t : Tape) (s : σ) :
    input.perform ch ip t s
      = (match (ch.read s).1 with
          | .error e  => .error (.ofRaised ip e)
          | .ok chunk =>
            match chunk.first? with
            | none            => .error (.stream ip .exhausted)
            | some (.error e) => .error (.passed e)
            | some (.ok v)    => (t.write v none).mapError .address,
        (ch.read s).2) := by
  rw [perform]
  rcases ch.read s with ⟨_ | chunk, s'⟩
  · rfl
  · dsimp only
    rcases chunk.first? with _ | _ | _
    · rfl
    · rfl
    · rfl

/-- Writing is one call, and only its answer decides how it goes. -/
theorem perform_output (hon : t.OnTape) (ch : Channels σ) (ip : Nat) (s : σ) :
    output.perform ch ip t s
      = (match (ch.write (t.get hon.index) s).1 with
          | .error e   => .error (.ofRaised ip e)
          | .ok report => if report.isZero then .error (.stream ip .refused) else .ok t,
        (ch.write (t.get hon.index) s).2) := by
  rw [perform, hon.current_eq]
  dsimp only
  rcases ch.write (t.get hon.index) s with ⟨_ | report, s'⟩
  · rfl
  · rfl

/-- The stream call of an operation lets an error through that is no stream failure: it raises an
    error of neither handled family, or hands over something that is no number. -/
inductive Passes (ch : Channels σ) (t : Tape) (s : σ) : Elementary → Raised → Prop where
  | unreadable (e : Raised) (hr : (ch.read s).1 = .error e) (hh : e.isHandled = false) :
      Passes ch t s .input e
  | misfit (chunk : Chunk) (e : Raised) (hr : (ch.read s).1 = .ok chunk)
      (hv : chunk.first? = some (.error e)) :
      Passes ch t s .input e
  | unwritable (b : UInt8) (e : Raised) (hc : t.current = .ok b) (hw : (ch.write b s).1 = .error e)
      (hh : e.isHandled = false) :
      Passes ch t s .output e

/-- The fault of an elementary operation on the tape is a stream failure at its place, or an error
    that its stream call lets through. -/
theorem fault_of_perform {f : Fault} (hon : t.OnTape)
    (h : op.perform ch ip t s = (.error f, s')) :
    (∃ why, f = .stream ip why) ∨ ∃ e, f = .passed e ∧ Passes ch t s op e := by
  have hcase := performCase ch ip hon s op
  rw [h] at hcase
  cases hcase with
  | misfit chunk e s' hr hv =>
      exact Or.inr ⟨e, rfl, .misfit chunk e (congrArg Prod.fst hr) hv⟩
  | exhausted => exact Or.inl ⟨.exhausted, rfl⟩
  | unreadable e s' hr =>
      rcases Fault.ofRaised_cases ip e with ⟨-, he⟩ | ⟨hh, he⟩
      · exact Or.inl ⟨.raised e, he⟩
      · exact Or.inr ⟨e, he, .unreadable e (congrArg Prod.fst hr) hh⟩
  | refused => exact Or.inl ⟨.refused, rfl⟩
  | unwritable e s' hw =>
      rcases Fault.ofRaised_cases ip e with ⟨-, he⟩ | ⟨hh, he⟩
      · exact Or.inl ⟨.raised e, he⟩
      · exact Or.inr ⟨e, he, .unwritable _ e hon.current_eq (congrArg Prod.fst hw) hh⟩

/-- An elementary operation neither adds cells nor takes the pointer off them. -/
theorem onTape_of_perform (hon : t.OnTape) (h : op.perform ch ip t s = (.ok t', s')) :
    t'.OnTape ∧ t'.size = t.size := by
  have hcase := performCase ch ip hon s op
  rw [h] at hcase
  cases hcase with
  | increment => exact ⟨hon.set .., Tape.size_set ..⟩
  | decrement => exact ⟨hon.set .., Tape.size_set ..⟩
  | next => exact ⟨hon.moveNext, rfl⟩
  | previous => exact ⟨hon.movePrevious, rfl⟩
  | read => exact ⟨hon.set .., Tape.size_set ..⟩
  | written => exact ⟨hon, rfl⟩

end Elementary

end TapeMachine
