import TapeMachine.Proofs.Bracket.Exchange
import TapeMachine.Proofs.Machine.Lockstep
import TapeMachine.Proofs.Tape.Symmetry

/-!
# Symmetries of the machine

What a machine does on a tape it does on the same tape seen differently, if its operations are
exchanged to match and its streams speak of cells in the same way. So a machine and its image under
a `Symmetry` go **in lockstep** (`Symmetry.lockstep`), whatever the loops of the program make of it:
a cell is zero exactly if its image is, and the exchange leaves every bracket in its place.

* `Channels.Renamed` says of two pairs of streams that they say the same of different values.
* `Symmetry.Joins` is the relation between the two machines that every step keeps.
-/

namespace TapeMachine

-- ── Operations ───────────────────────────────────────────────────────────────────

/-- Moves in the other direction. -/
def Operation.turned : Operation → Operation
  | next     => previous
  | previous => next
  | op       => op

/-- Counts in the other direction. -/
def Operation.opposed : Operation → Operation
  | increment => decrement
  | decrement => increment
  | op        => op

namespace Symmetry

/-- The operation that does there what another one does here. -/
def operation (S : Symmetry) (op : Operation) : Operation :=
  let op := if S.mirrored then op.turned else op
  if S.negated then op.opposed else op

/-- The same for operations that are no brackets. -/
def elementary (S : Symmetry) : Elementary → Elementary
  | .increment => if S.negated then .decrement else .increment
  | .decrement => if S.negated then .increment else .decrement
  | .next      => if S.mirrored then .previous else .next
  | .previous  => if S.mirrored then .next else .previous
  | op         => op

/-- An operation that is no bracket is exchanged for one that is none. -/
theorem operation_toOperation (S : Symmetry) (op : Elementary) :
    S.operation op.toOperation = (S.elementary op).toOperation := by
  obtain ⟨k, mirrored, negated⟩ := S
  cases op <;> cases mirrored <;> cases negated <;> rfl

/-- No symmetry touches a bracket. -/
theorem operation_loopForward (S : Symmetry) : S.operation .loopForward = .loopForward := by
  obtain ⟨k, mirrored, negated⟩ := S
  cases mirrored <;> cases negated <;> rfl

/-- The same for the other bracket. -/
theorem operation_loopBack (S : Symmetry) : S.operation .loopBack = .loopBack := by
  obtain ⟨k, mirrored, negated⟩ := S
  cases mirrored <;> cases negated <;> rfl

/-- The same for what stands in a program. -/
def element (S : Symmetry) : Element → Element
  | .operation op => .operation (S.operation op)
  | x             => x

/-- The exchange leaves every bracket what it is, and makes none. -/
theorem keepsBrackets (S : Symmetry) : Element.KeepsBrackets S.element where
  opening := congrArg Element.operation S.operation_loopForward
  closing := congrArg Element.operation S.operation_loopBack
  other   := by
    intro x ho hc
    cases x with
    | operation op =>
        rcases op.elementary_or_bracket with ⟨e, rfl⟩ | rfl | rfl
        · obtain ⟨ho', hc'⟩ := (S.elementary e).toOperation_ne
          rw [element, operation_toOperation]
          exact ⟨fun h => ho' (Element.operation.inj h), fun h => hc' (Element.operation.inj h)⟩
        · exact absurd rfl ho
        · exact absurd rfl hc
    | _ => exact ⟨ho, hc⟩

/-- To exchange the elements of a program is to exchange its operations. -/
theorem map_ofOperations (S : Symmetry) (ops : List Operation) :
    (Program.ofOperations ops).map S.element = Program.ofOperations (ops.map S.operation) := by
  simp only [Program.ofOperations, List.map_toArray, List.map_map]
  rfl

end Symmetry

-- ── Streams ──────────────────────────────────────────────────────────────────────

namespace Channels

variable {σ τ : Type}

/-- What a read comes to for the cell that it is meant for: its value, if there is an element and
    it is a number. -/
def heard (ch : Channels σ) (s : σ) : Except Raised (Option (Except Raised UInt8)) :=
  (ch.read s).1.map fun chunk => chunk.first?.map fun v => v.map UInt8.ofInt

/-- Channels that say the same, with every value `b` told as `f b`, as long as a relation holds
    between what they remember, and that do not break it. -/
structure Renamed (f : UInt8 → UInt8) (Q : σ → τ → Prop) (ch : Channels σ) (ch' : Channels τ) :
    Prop where
  read  : ∀ {s s'}, Q s s' →
    ch'.heard s' = (ch.heard s).map (Option.map (Except.map f)) ∧ Q (ch.read s).2 (ch'.read s').2
  write : ∀ (b : UInt8) {s s'}, Q s s' →
    (ch'.write (f b) s').1 = (ch.write b s).1 ∧ Q (ch.write b s).2 (ch'.write (f b) s').2
  flush : ∀ (ip : Nat) {s s'}, Q s s' →
    (Machine.flush ch' ip s').1 = (Machine.flush ch ip s).1
      ∧ Q (Machine.flush ch ip s).2 (Machine.flush ch' ip s').2

/-- The same streams say the same. -/
theorem renamed_self {f : UInt8 → UInt8} (hf : ∀ b, f b = b) (ch : Channels σ) :
    Renamed f Eq ch ch where
  read  := by
    rintro s _ rfl
    refine ⟨?_, rfl⟩
    rcases ch.heard s with e | _ | e | b
    · rfl
    · rfl
    · rfl
    · exact congrArg (fun b => Except.ok (some (Except.ok b))) (hf b).symm
  write := by
    rintro b s _ rfl
    rw [hf]
    exact ⟨rfl, rfl⟩
  flush := by
    rintro ip s _ rfl
    exact ⟨rfl, rfl⟩

end Channels

namespace Symmetry

variable {σ τ : Type} {S : Symmetry} {Q : σ → τ → Prop} {ch : Channels σ} {ch' : Channels τ}
  {t u : Tape} {s : σ} {s' : τ}

-- ── Elementary operations ────────────────────────────────────────────────────────

/-- What an operation comes to on two tapes: the same fault, or tapes that are still related. -/
inductive Alike (S : Symmetry) (Q : σ → τ → Prop) :
    Except Fault Tape × σ → Except Fault Tape × τ → Prop where
  | ok {t u : Tape} {s : σ} {s' : τ} (ht : S.Relates t u) (hs : Q s s') :
      Alike S Q (.ok t, s) (.ok u, s')
  | error (f : Fault) {s : σ} {s' : τ} (hs : Q s s') : Alike S Q (.error f, s) (.error f, s')

/-- Reading sees nothing of the streams but what they say to the current cell. -/
theorem perform_input_heard (hon : t.OnTape) (ch : Channels σ) (ip : Nat) (s : σ) :
    Elementary.input.perform ch ip t s
      = (match ch.heard s with
          | .error e              => .error (.ofRaised ip e)
          | .ok none              => .error (.stream ip .exhausted)
          | .ok (some (.error e)) => .error (.passed e)
          | .ok (some (.ok b))    => .ok (t.set hon.index b),
        (ch.read s).2) := by
  rw [Elementary.perform_input, Channels.heard]
  rcases (ch.read s).1 with e | chunk
  · rfl
  · dsimp only [Except.map]
    rcases chunk.first? with _ | e | v
    · rfl
    · rfl
    · dsimp only [Option.map]
      rw [hon.write_eq]
      rfl

/-- An operation that needs no stream, and the one of two that the symmetry exchanges it for. -/
theorem Alike.exchanged {ip : Nat} {b : Bool} {op op₁ op₂ : Elementary} {t' u₁ u₂ : Tape}
    (hop : op.perform ch ip t s = (.ok t', s)) (hop₁ : op₁.perform ch' ip u s' = (.ok u₁, s'))
    (hop₂ : op₂.perform ch' ip u s' = (.ok u₂, s')) (ht : S.Relates t' (if b then u₁ else u₂))
    (hs : Q s s') :
    S.Alike Q (op.perform ch ip t s) ((if b then op₁ else op₂).perform ch' ip u s') := by
  rw [hop]
  cases b with
  | true =>
      rw [if_pos rfl] at ht ⊢
      rw [hop₁]
      exact .ok ht hs
  | false =>
      rw [if_neg Bool.false_ne_true] at ht ⊢
      rw [hop₂]
      exact .ok ht hs

/-- Counting up there is counting down here, if values are negated, and counting up otherwise. -/
theorem Alike.increment (ht : S.Relates t u) (hon : t.OnTape) (hs : Q s s') (ip : Nat) :
    S.Alike Q (Elementary.increment.perform ch ip t s)
      ((if S.negated then Elementary.decrement else .increment).perform ch' ip u s') := by
  have hset := ht.set hon (t.get hon.index + 1)
  rw [value_add_one, ← ht.get_index hon, apply_ite (u.set _)] at hset
  exact .exchanged (Elementary.perform_increment hon ch ip s)
    (Elementary.perform_decrement ht.onTape ch' ip s')
    (Elementary.perform_increment ht.onTape ch' ip s') hset hs

/-- The same for counting down. -/
theorem Alike.decrement (ht : S.Relates t u) (hon : t.OnTape) (hs : Q s s') (ip : Nat) :
    S.Alike Q (Elementary.decrement.perform ch ip t s)
      ((if S.negated then Elementary.increment else .decrement).perform ch' ip u s') := by
  have hset := ht.set hon (t.get hon.index - 1)
  rw [value_sub_one, ← ht.get_index hon, apply_ite (u.set _)] at hset
  exact .exchanged (Elementary.perform_decrement hon ch ip s)
    (Elementary.perform_increment ht.onTape ch' ip s')
    (Elementary.perform_decrement ht.onTape ch' ip s') hset hs

/-- A move there is a move the other way here, if the tape is mirrored, and the same move
    otherwise. -/
theorem Alike.next (ht : S.Relates t u) (hon : t.OnTape) (hs : Q s s') (ip : Nat) :
    S.Alike Q (Elementary.next.perform ch ip t s)
      ((if S.mirrored then Elementary.previous else .next).perform ch' ip u s') :=
  .exchanged rfl rfl rfl (ht.moveNext hon) hs

/-- The same for a move to the left. -/
theorem Alike.previous (ht : S.Relates t u) (hon : t.OnTape) (hs : Q s s') (ip : Nat) :
    S.Alike Q (Elementary.previous.perform ch ip t s)
      ((if S.mirrored then Elementary.next else .previous).perform ch' ip u s') :=
  .exchanged rfl rfl rfl (ht.movePrevious hon) hs

/-- Reading goes alike, if the streams say the same. -/
theorem Alike.input (h : Channels.Renamed S.value Q ch ch') (ht : S.Relates t u) (hon : t.OnTape)
    (hs : Q s s') (ip : Nat) :
    S.Alike Q (Elementary.input.perform ch ip t s) (Elementary.input.perform ch' ip u s') := by
  obtain ⟨hheard, hs'⟩ := h.read hs
  rw [perform_input_heard hon, perform_input_heard ht.onTape, hheard]
  rcases ch.heard s with e | _ | e | b
  · exact .error _ hs'
  · exact .error _ hs'
  · exact .error _ hs'
  · exact .ok (ht.set hon b) hs'

/-- Writing goes alike, if the streams take the same. -/
theorem Alike.output (h : Channels.Renamed S.value Q ch ch') (ht : S.Relates t u) (hon : t.OnTape)
    (hs : Q s s') (ip : Nat) :
    S.Alike Q (Elementary.output.perform ch ip t s) (Elementary.output.perform ch' ip u s') := by
  obtain ⟨hanswer, hs'⟩ := h.write (t.get hon.index) hs
  rw [Elementary.perform_output hon, Elementary.perform_output ht.onTape, ht.get_index hon, hanswer]
  rcases (ch.write (t.get hon.index) s).1 with e | report
  · exact .error _ hs'
  · dsimp only
    split
    · exact .error _ hs'
    · exact .ok ht hs'

/-- **An elementary operation and its counterpart do the same.** -/
theorem alike (h : Channels.Renamed S.value Q ch ch') (ht : S.Relates t u) (hon : t.OnTape)
    (hs : Q s s') (ip : Nat) (op : Elementary) :
    S.Alike Q (op.perform ch ip t s) ((S.elementary op).perform ch' ip u s') := by
  cases op with
  | increment => exact .increment ht hon hs ip
  | decrement => exact .decrement ht hon hs ip
  | next => exact .next ht hon hs ip
  | previous => exact .previous ht hon hs ip
  | input => exact .input h ht hon hs ip
  | output => exact .output h ht hon hs ip

-- ── Steps ────────────────────────────────────────────────────────────────────────

variable {c : Machine × σ} {c' : Machine × τ}

/-- The second machine is the first one seen differently, and so are its streams. -/
structure Joins (S : Symmetry) (Q : σ → τ → Prop) (c : Machine × σ) (c' : Machine × τ) : Prop where
  operations : ∀ x ∈ c.1.program, ∃ op, x = .operation op
  program    : c'.1.program = c.1.program.map S.element
  ip         : c'.1.ip = c.1.ip
  onTape     : c.1.tape.OnTape
  tape       : S.Relates c.1.tape c'.1.tape
  streams    : Q c.2 c'.2

/-- Two joined machines stay joined when they go on to one place, on tapes that are related. -/
theorem Joins.moved (h : S.Joins Q c c') (k : Nat) (hon : t.OnTape) (ht : S.Relates t u)
    (hs : Q s s') : S.Joins Q (c.1.moved k t, s) (c'.1.moved k u, s') where
  operations := h.operations
  program    := h.program
  ip         := rfl
  onTape     := hon
  tape       := ht
  streams    := hs

/-- Joined machines are about to execute elements that are images of each other. -/
theorem Joins.fetch_eq (h : S.Joins Q c c') : c'.1.fetch = c.1.fetch.map S.element := by
  rw [Machine.fetch, Machine.fetch, h.program, h.ip, Array.getElem?_map]
  cases hp : c.1.program[c.1.ip]? with
  | none => rfl
  | some x =>
      obtain ⟨op, rfl⟩ := h.operations x (Array.mem_of_getElem? hp)
      rfl

/-- Where the one opens a loop, so does the other. -/
theorem Joins.fetch_opening (h : S.Joins Q c c') (hf : c.1.fetch = some .opening) :
    c'.1.fetch = some .opening := by
  rw [h.fetch_eq, hf]
  exact congrArg some S.keepsBrackets.opening

/-- Where the one closes a loop, so does the other. -/
theorem Joins.fetch_closing (h : S.Joins Q c c') (hf : c.1.fetch = some .closing) :
    c'.1.fetch = some .closing := by
  rw [h.fetch_eq, hf]
  exact congrArg some S.keepsBrackets.closing

/-- Where the one executes an operation that is no bracket, the other executes its image. -/
theorem Joins.fetch_elementary {op : Elementary} (h : S.Joins Q c c')
    (hf : c.1.fetch = some (.operation op.toOperation)) :
    c'.1.fetch = some (.operation (S.elementary op).toOperation) := by
  rw [h.fetch_eq, hf, ← operation_toOperation]
  rfl

/-- The current cells are images of each other. -/
theorem Joins.current (h : S.Joins Q c c') {b : UInt8} (hb : c.1.tape.current = .ok b) :
    c'.1.tape.current = .ok (S.value b) := by
  rw [h.tape.current h.onTape, hb]
  rfl

/-- So a loop is left out or repeated by both or by neither. -/
theorem Joins.current_zero (h : S.Joins Q c c') (hb : c.1.tape.current = .ok 0) :
    c'.1.tape.current = .ok 0 := by
  rw [h.current hb, (S.value_eq_zero_iff 0).mpr rfl]

/-- Both go on behind the same bracket when they leave a loop out. -/
theorem Joins.partnerRight (h : S.Joins Q c c') (hf : c.1.fetch = some .opening) :
    c'.1.program.partnerRight c.1.ip = c.1.program.partnerRight c.1.ip := by
  rw [h.program]
  exact Program.partnerRight_map S.keepsBrackets (Machine.getElem?_of_fetch hf)

/-- Both go on behind the same bracket when they repeat a loop. -/
theorem Joins.partnerLeft (h : S.Joins Q c c') (hf : c.1.fetch = some .closing) :
    c'.1.program.partnerLeft c.1.ip = c.1.program.partnerLeft c.1.ip := by
  rw [h.program]
  exact Program.partnerLeft_map S.keepsBrackets (Machine.getElem?_of_fetch hf)

/-- **A step of both machines** has the same result and leaves them as they were to one another. -/
theorem Joins.next (h : Channels.Renamed S.value Q ch ch') (hc : S.Joins Q c c') :
    ∃ r c₁ c₁', c.1.next ch c.2 = (r, c₁) ∧ c'.1.next ch' c'.2 = (r, c₁') ∧ S.Joins Q c₁ c₁' := by
  have hon' := hc.tape.onTape
  have hcase := Machine.stepCase hc.onTape ch c.2
  generalize c.1.next ch c.2 = r at hcase
  cases hcase with
  | ended hf =>
      have hf' : c'.1.fetch = none := by rw [hc.fetch_eq, hf, Option.map_none]
      exact ⟨_, _, c', rfl, Machine.next_of_fetch_eq_none hf', hc⟩
  | performed op t s hf hp =>
      have halike := alike h hc.tape hc.onTape hc.streams c.1.ip op
      obtain ⟨hon, -⟩ := Elementary.onTape_of_perform hc.onTape hp
      rw [hp] at halike
      rw [Machine.next_elementary hon' (hc.fetch_elementary hf), hc.ip]
      generalize (S.elementary op).perform ch' c.1.ip c'.1.tape c'.2 = r' at halike
      cases halike with
      | ok ht hs => exact ⟨_, _, _, rfl, rfl, hc.moved _ hon ht hs⟩
  | refused op f s hf hp =>
      have halike := alike h hc.tape hc.onTape hc.streams c.1.ip op
      rw [hp] at halike
      rw [Machine.next_elementary hon' (hc.fetch_elementary hf), hc.ip]
      generalize (S.elementary op).perform ch' c.1.ip c'.1.tape c'.2 = r' at halike
      cases halike with
      | error f hs => exact ⟨_, _, _, rfl, rfl, { hc with streams := hs }⟩
  | entered b hf hb h0 =>
      have h0' := mt (S.value_eq_zero_iff b).mp h0
      rw [Machine.next_enter hon' (hc.fetch_opening hf) (hc.current hb) h0', hc.ip]
      exact ⟨_, _, _, rfl, rfl, hc.moved _ hc.onTape hc.tape hc.streams⟩
  | skipped j hf hb hj =>
      rw [Machine.next_skip hon' (hc.fetch_opening hf) (hc.current_zero hb), hc.ip,
        hc.partnerRight hf, hj]
      exact ⟨_, _, _, rfl, rfl, hc.moved _ hc.onTape hc.tape hc.streams⟩
  | endless hf hb hj =>
      rw [Machine.next_skip hon' (hc.fetch_opening hf) (hc.current_zero hb), hc.ip,
        hc.partnerRight hf, hj]
      exact ⟨_, _, _, rfl, rfl, hc⟩
  | left hf hb =>
      rw [Machine.next_leave hon' (hc.fetch_closing hf) (hc.current_zero hb), hc.ip]
      exact ⟨_, _, _, rfl, rfl, hc.moved _ hc.onTape hc.tape hc.streams⟩
  | repeated b i hf hb h0 hi =>
      have h0' := mt (S.value_eq_zero_iff b).mp h0
      rw [Machine.next_repeat hon' (hc.fetch_closing hf) (hc.current hb) h0', hc.ip,
        hc.partnerLeft hf, hi]
      exact ⟨_, _, _, rfl, rfl, hc.moved _ hc.onTape hc.tape hc.streams⟩
  | startless b hf hb h0 hi =>
      have h0' := mt (S.value_eq_zero_iff b).mp h0
      rw [Machine.next_repeat hon' (hc.fetch_closing hf) (hc.current hb) h0', hc.ip,
        hc.partnerLeft hf, hi]
      exact ⟨_, _, _, rfl, rfl, hc⟩
  | foreign x f hf hx =>
      obtain ⟨op, rfl⟩ := hc.operations x (Array.mem_of_getElem? (Machine.getElem?_of_fetch hf))
      exact absurd rfl (hx op)

/-- **A machine and its image go in lockstep.** -/
theorem lockstep (h : Channels.Renamed S.value Q ch ch') :
    Machine.Lockstep ch ch' Machine.Always id (S.Joins Q) where
  result := by
    intro c c' hc _
    obtain ⟨r, c₁, c₁', hn, hn', -⟩ := hc.next h
    rw [hn, hn', mapError_id]
  kept := by
    intro c c' hc _
    obtain ⟨r, c₁, c₁', hn, hn', hc₁⟩ := hc.next h
    rw [hn, hn']
    exact hc₁

/-- The flush at the end is answered alike. -/
theorem flushAlike (h : Channels.Renamed S.value Q ch ch') :
    Machine.FlushAlike ch ch' id (S.Joins Q) where
  result := by
    intro c c' hc
    rw [hc.ip, (h.flush c.1.ip hc.streams).1, mapError_id]
  kept := by
    intro c c' hc
    rw [hc.ip]
    exact { hc with streams := (h.flush c.1.ip hc.streams).2 }

-- ── Runs ─────────────────────────────────────────────────────────────────────────

/-- A program and its image, both from the beginning on a zero tape. -/
theorem joins_reset (h : S.shift = 0) (hs : Q s s') (vm : Machine) (ops : List Operation) :
    S.Joins Q ((vm.load (.ofOperations ops)).reset, s)
      ((vm.load (.ofOperations (ops.map S.operation))).reset, s') where
  operations := fun _ => Machine.exists_of_mem_ofOperations
  program    := (S.map_ofOperations ops).symm
  ip         := rfl
  onTape     := Tape.onTape_reset
  tape       := relates_reset_self h vm.tape
  streams    := hs

end Symmetry

end TapeMachine
