import TapeMachine.Proofs.CommandLine.Invocation

/-!
# Programs that cannot be had

A call may fail to get at its program: the file does not open, or reading it fails, from a file or
from the standard input. What the command line makes of the error depends on the stage, because each
stage answers for other errors (`Stage.answers`). Those of the operating system are answered for at
both, with status 1 and an error in the log, and so are those of this library.

Of the value family, which the machine answers for whenever a stream raises it, only one class is
answered for here, and only in reading: bytes that are no text. **Every other error about a value
escapes**, unless it is one of this library too: that of a path with a zero byte in it, or that of a
closed standard input.
-/

namespace TapeMachine.CommandLine

/-- Where the way to a program ends. -/
inductive Stage where
  | opening (path : String)
  | reading

namespace Stage

/-- Whether a stage has a message of its own for an error. -/
def explains : Stage → Raised → Bool
  | opening _, e => e.kind.isSystem
  | reading, e   => e.kind.isSystem || e.kind.isUndecodable

/-- This message. -/
def message : Stage → Raised → String
  | opening path, e => unopenedText path e.text
  | reading, e      => unsuccessfulText (ReadError.unreadable e).message

/-- Whether the command line answers for an error at a stage. -/
def answers (stage : Stage) (e : Raised) : Bool :=
  stage.explains e || e.isOwn

/-- The error in the log. -/
def text (stage : Stage) (e : Raised) : String :=
  if stage.explains e then stage.message e else unsuccessfulText e.text

/-- The end of a call whose way to its program ends with an error. -/
def ending : Stage → Raised → Ending
  | opening path, e => .ofUnopened path e
  | reading, e      => .ofReadError (.ofRaised e)

end Stage

variable {limit : Nat} {files : Files} {h : Host} {args : List String} {stage : Stage} {e : Raised}

/-- The way to the program of a call ends at a stage, with an error that was raised there. -/
inductive NoSource (files : Files) (h : Host) : List String → Stage → Raised → Prop where
  | unopened (path : String) (e : Raised) (hpath : path.toList.head? ≠ some '-')
      (he : files path = .error e) :
      NoSource files h [path] (.opening path) e
  | unread (path : String) (e : Raised) (hpath : path.toList.head? ≠ some '-')
      (he : files path = .ok (.error e)) :
      NoSource files h [path] .reading e
  | unreadInput (e : Raised) (he : (h.stdin.read (.whole (-1)) h.devices).1 = .error e) :
      NoSource files h [] .reading e

theorem NoSource.ending_eq (hno : NoSource files h args stage e) (limit : Nat) :
    (invoke limit files args h).toEnding = stage.ending e := by
  cases hno with
  | unopened path e hpath he => rw [invoke_path hpath, runPath, he]; rfl
  | unread path e hpath he => rw [invoke_path hpath, runPath, he]; rfl
  | unreadInput e he => rw [invoke_nil, he]; rfl

/-- No error that the machine would answer for asks for an exit with a status of its own. -/
theorem ofRaised_of_isHandled (he : e.isHandled = true) :
    Exit.ofRaised e = .escaped (.ofRaised e) := by
  rw [Exit.ofRaised, if_neg]
  intro hk
  rw [Raised.isHandled, hk] at he
  cases he

/-- An error that a stage has no message for goes on to where those of this library are caught. -/
theorem Stage.ending_of_not_explains (hs : stage.explains e = false) :
    stage.ending e = .ofPassed e := by
  cases stage with
  | opening path =>
      have hsystem : e.kind.isSystem = false := hs
      rw [ending, Ending.ofUnopened, hsystem]
      rfl
  | reading =>
      have hread : (e.kind.isSystem || e.kind.isUndecodable) = false := hs
      rw [ending, ReadError.ofRaised, hread]
      rfl

theorem Stage.ending_of_answers (ha : stage.answers e = true) :
    (stage.ending e).exit = .status 1 ∧ (stage.ending e).errors = [stage.text e] := by
  cases hs : stage.explains e with
  | true =>
      rw [text, if_pos hs]
      cases stage with
      | opening path =>
          have hsystem : e.kind.isSystem = true := hs
          rw [ending, Ending.ofUnopened, if_pos hsystem]
          exact ⟨rfl, rfl⟩
      | reading =>
          have hread : (e.kind.isSystem || e.kind.isUndecodable) = true := hs
          rw [ending, ReadError.ofRaised, if_pos hread]
          exact ⟨rfl, rfl⟩
  | false =>
      have hown : e.isOwn = true := by
        rw [answers, hs] at ha
        exact ha
      rw [text, hs, ending_of_not_explains hs, Ending.ofPassed, if_pos hown]
      exact ⟨rfl, rfl⟩

theorem Stage.ending_of_not_answers (ha : stage.answers e = false) :
    stage.ending e = ⟨.ofRaised e, #[]⟩ := by
  obtain ⟨hs, hown⟩ := Bool.or_eq_false_iff.mp ha
  rw [ending_of_not_explains hs, Ending.ofPassed, hown]
  rfl

/-- Not every such error ends the call with status 1. A path with a zero byte in it is refused
    before any file is looked for, by an error about a value, and this one escapes. -/
theorem not_all_source_errors_answered :
    ¬ ∀ (files : Files) (h : Host) (args : List String) (stage : Stage) (e : Raised) (limit : Nat),
      NoSource files h args stage e → e.isHandled = true →
        (invoke limit files args h).exit = .status 1
          ∧ (invoke limit files args h).errors.length = 1 := by
  intro hall
  let h : Host := { devices := #[], stdin := .direct 0, stdout := .direct 1 }
  have hno : NoSource (Directory.open? {}) h ["a\x00b"] (.opening "a\x00b")
      (.badValue "embedded null byte") := .unopened _ _ (by decide) rfl
  have hending := hno.ending_eq 9
  obtain ⟨hexit, -⟩ := hall _ _ _ _ _ 9 hno rfl
  rw [hending] at hexit
  exact nomatch hexit

/-- **An error on the way to the program is answered for with status 1 and one error in the log, or
    it escapes and nothing is logged**, by its stage and its class. -/
theorem source_errors_answered_by_stage (hno : NoSource files h args stage e)
    (he : e.isHandled = true) (limit : Nat) :
    let call := invoke limit files args h
    (stage.answers e = true → call.exit = .status 1 ∧ call.errors = [stage.text e])
      ∧ (stage.answers e = false → call.exit = .escaped (.ofRaised e) ∧ call.errors = []) := by
  intro call
  have hending : call.toEnding = stage.ending e := hno.ending_eq limit
  constructor
  · intro ha
    rw [hending]
    exact Stage.ending_of_answers ha
  · intro ha
    rw [hending, Stage.ending_of_not_answers ha]
    exact ⟨ofRaised_of_isHandled he, rfl⟩

/-- A standard input that is closed cannot be read, and the error of the stream escapes. That of a
    stream that refuses to be read is answered for. -/
theorem source_errors_at_standard_input :
    let closed : Host :=
      { devices := #[.bytes { closed := true }], stdin := .direct 0, stdout := .direct 1 }
    let refusing : Host :=
      { devices := #[.script { reads := [.error { kind := .system .permission }] }],
        stdin := .direct 0, stdout := .direct 1 }
    (NoSource (Directory.open? {}) closed [] .reading Device.closedError
        ∧ Device.closedError.isHandled = true
        ∧ (invoke 9 (Directory.open? {}) [] closed).exit = .escaped (.ofRaised Device.closedError))
      ∧ NoSource (Directory.open? {}) refusing [] .reading { kind := .system .permission }
        ∧ ({ kind := .system .permission } : Raised).isHandled = true
        ∧ (invoke 9 (Directory.open? {}) [] refusing).exit = .status 1 := by
  intro closed refusing
  have hclosed : NoSource (Directory.open? {}) closed [] .reading Device.closedError :=
    .unreadInput _ rfl
  have hrefusing : NoSource (Directory.open? {}) refusing [] .reading
      { kind := .system .permission } := .unreadInput _ rfl
  exact ⟨⟨hclosed, rfl, ((source_errors_answered_by_stage hclosed rfl 9).2 rfl).1⟩, hrefusing, rfl,
    ((source_errors_answered_by_stage hrefusing rfl 9).1 rfl).1⟩

end TapeMachine.CommandLine
