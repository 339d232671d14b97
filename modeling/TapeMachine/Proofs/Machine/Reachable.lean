import TapeMachine.Handle
import TapeMachine.Proofs.Bracket.Matching
import TapeMachine.Proofs.Machine.Course
import TapeMachine.Proofs.Machine.Elementary

/-!
# Reachable machines

What an owner can make of a machine by giving it commands: load a program, run it, make single
steps, reset. Whatever the commands were, and however they ended, the machine is `Safe` afterwards:

* its place is in the program or at the end of it, its pointer is on the tape, and the tape has the
  cells it was made with (`Sound`, an invariant of **every single step**);
* so the current cell can be read and traced, and a step can only fail for a reason that
  `Accounted` names: a bracket without a partner, or what a stream did when it was called.
-/

namespace TapeMachine

/-- What is read is bytes, a text, a list of whole numbers of any magnitude, or nothing. -/
def Chunk.IsPlain : Chunk → Prop
  | .items vs => ∀ v ∈ vs, ∃ n, v = .whole n
  | _         => True

/-- What is plain starts with a number, if it starts with anything. -/
theorem Chunk.IsPlain.first?_ne_error {chunk : Chunk} (h : chunk.IsPlain) (e : Raised) :
    chunk.first? ≠ some (.error e) := by
  intro hv
  cases chunk with
  | bytes bs => cases bs <;> simp [first?] at hv
  | text cs => simp [first?] at hv
  | items vs =>
      cases vs with
      | nil => exact nomatch hv
      | cons v vs =>
          obtain ⟨n, rfl⟩ := h v List.mem_cons_self
          exact nomatch hv
  | nothing => exact nomatch hv

namespace Machine

variable {σ : Type} {ch : Channels σ} {vm : Machine} {s : σ} {n : Nat}

-- ── Commands ─────────────────────────────────────────────────────────────────────

/-- A new machine with a tape of `n` cells. -/
def fresh (n : Nat) (hn : 0 < n) (tracing : Bool) : Machine :=
  { tape := .blank n hn, tracing }

/-- No other machine is made for a size, whatever value it is given as. -/
theorem eq_fresh_of_ofSize {v : Value} {tracing : Bool} (h : ofSize v tracing = .ok vm) :
    ∃ (n : Nat) (hn : 0 < n), v = .whole n ∧ vm = fresh n hn tracing := by
  rw [ofSize] at h
  split at h
  · next t ht =>
      obtain ⟨n, hn, hv, rfl⟩ := Tape.eq_blank_of_ofSize ht
      exact ⟨n, hn, hv, (Except.ok.inj h).symm⟩
  · exact nomatch h

/-- What the owner of a machine can ask of it. A run takes another program or the one that is
    loaded, and a limit on its steps. -/
inductive Command where
  | load (ops : List Operation)
  | run (ops? : Option (List Operation)) (limit : Nat)
  | step
  | reset

/-- Machine and streams after a command, whether it succeeded or not. -/
def obey (ch : Channels σ) (c : Machine × σ) : Command → Machine × σ
  | .load ops             => (c.1.load (.ofOperations ops), c.2)
  | .run none limit       =>
    let r := c.1.run ch limit c.2
    (r.machine, r.streams)
  | .run (some ops) limit =>
    let r := (c.1.load (.ofOperations ops)).run ch limit c.2
    (r.machine, r.streams)
  | .step                 =>
    let r := c.1.step ch c.2
    (r.machine, r.streams)
  | .reset                => (c.1.reset, c.2)

/-- Machine and streams after some commands, one after the other. -/
def obeyAll (ch : Channels σ) (c : Machine × σ) (cs : List Command) : Machine × σ :=
  cs.foldl (obey ch) c

-- ── The invariant ────────────────────────────────────────────────────────────────

/-- A machine that works on `n` cells executes operations only, and both its places are in range. -/
structure Sound (n : Nat) (vm : Machine) : Prop where
  operations : ∀ x ∈ vm.program, ∃ op, x = .operation op
  ip_le      : vm.ip ≤ vm.program.size
  onTape     : vm.tape.OnTape
  size_eq    : vm.tape.size = n

/-- A new machine keeps the invariant. -/
theorem sound_fresh (hn : 0 < n) (tracing : Bool) : (fresh n hn tracing).Sound n where
  operations := fun x hx => absurd hx (Array.not_mem_empty x)
  ip_le      := Nat.le_refl 0
  onTape     := Tape.onTape_blank n hn
  size_eq    := Tape.size_blank n hn

/-- In a program of operations every element is one. -/
theorem exists_of_mem_ofOperations {ops : List Operation} {x : Element}
    (hx : x ∈ Program.ofOperations ops) : ∃ op, x = .operation op := by
  have hx' : x ∈ ops.map Element.operation := List.mem_toArray.mp hx
  obtain ⟨op, -, rfl⟩ := List.mem_map.mp hx'
  exact ⟨op, rfl⟩

/-- Whatever the pointer was before, a reset puts it on the tape. -/
theorem sound_reset (h : ∀ x ∈ vm.program, ∃ op, x = .operation op) :
    vm.reset.Sound vm.tape.size where
  operations := h
  ip_le      := Nat.zero_le _
  onTape     := Tape.onTape_reset
  size_eq    := Tape.size_reset

theorem Sound.reset (h : vm.Sound n) : vm.reset.Sound n := by
  rw [← h.size_eq]
  exact sound_reset h.operations

/-- A load keeps the invariant. -/
theorem Sound.load (h : vm.Sound n) (ops : List Operation) :
    (vm.load (.ofOperations ops)).Sound n where
  operations := fun _ => exists_of_mem_ofOperations
  ip_le      := Nat.zero_le _
  onTape     := h.onTape
  size_eq    := h.size_eq

/-- Behind an element of the program there is a place of it, or its end. -/
theorem succ_le_of_fetch {x : Element} (hf : vm.fetch = some x) : vm.ip + 1 ≤ vm.program.size := by
  obtain ⟨hlt, -⟩ := Array.getElem?_eq_some_iff.mp (getElem?_of_fetch hf)
  exact hlt

/-- No move leads out of the program. -/
theorem Move.le_size {k : Nat} {t : Tape} (h : vm.Move k t) : k ≤ vm.program.size := by
  cases h with
  | performed op t hf => exact succ_le_of_fetch hf
  | entered c hf => exact succ_le_of_fetch hf
  | skipped j hf hc hj =>
      have hm := (Program.partnerRight_eq_some_iff (getElem?_of_fetch hf)).mp hj
      obtain ⟨hlt, -⟩ := Array.getElem?_eq_some_iff.mp hm.closes
      exact hlt
  | left hf => exact succ_le_of_fetch hf
  | repeated c i hf hc hne hi =>
      have hm := (Program.partnerLeft_eq_some_iff (getElem?_of_fetch hf)).mp hi
      obtain ⟨hlt, -⟩ := Array.getElem?_eq_some_iff.mp hm.opens
      exact hlt

/-- No step leads out of the program. -/
theorem ip_le_next (h : vm.ip ≤ vm.program.size) (ch : Channels σ) (s : σ) :
    (vm.next ch s).2.1.ip ≤ (vm.next ch s).2.1.program.size :=
  next_induction (P := fun vm' => vm'.ip ≤ vm'.program.size) h (fun _ _ hmove => hmove.le_size) ch s

/-- A step keeps the invariant, whether it succeeds or not. -/
theorem Sound.next (h : vm.Sound n) (ch : Channels σ) (s : σ) :
    (vm.next ch s).2.1.Sound n where
  operations := by
    rw [program_next]
    exact h.operations
  ip_le      := ip_le_next h.ip_le ch s
  onTape     := onTape_next h.onTape ch s
  size_eq    := (size_next ch vm s).trans h.size_eq

/-- There is nothing to execute only at the end of the program. -/
theorem Sound.fetch_eq_none_iff (h : vm.Sound n) :
    vm.fetch = none ↔ vm.ip = vm.program.size := by
  constructor
  · intro hf
    rcases Nat.lt_or_ge vm.ip vm.program.size with hlt | hge
    · have hp : vm.program[vm.ip]? = some vm.program[vm.ip] := Array.getElem?_eq_getElem hlt
      obtain ⟨op, hop⟩ := h.operations _ (Array.mem_of_getElem? hp)
      rw [hop] at hp
      rw [fetch_operation hp] at hf
      exact nomatch hf
    · exact Nat.le_antisymm h.ip_le hge
  · intro hip
    exact fetch_of_size_le (Nat.le_of_eq hip.symm)

/-- Any number of steps keeps the invariant. -/
theorem Sound.after {m : Nat} {vm' : Machine} {s' : σ} (h : vm.Sound n)
    (ha : vm.after ch m s = some (vm', s')) : vm'.Sound n :=
  after_invariant (fun _ s hvm => hvm.next ch s) h ha

/-- A run keeps the invariant, wherever it ends. -/
theorem Sound.run (h : vm.Sound n) (ch : Channels σ) (limit : Nat) (s : σ) :
    (vm.run ch limit s).machine.Sound n := by
  rw [run_eq_conclude, machine_conclude]
  exact advanceFrom_invariant (fun _ s hvm => hvm.next ch s) h.reset

/-- Every command keeps the invariant. -/
theorem Sound.obey {c : Machine × σ} (h : c.1.Sound n) (ch : Channels σ) (cmd : Command) :
    (obey ch c cmd).1.Sound n := by
  cases cmd with
  | load ops => exact h.load ops
  | run ops? limit =>
      cases ops? with
      | none => exact h.run ch limit c.2
      | some ops => exact (h.load ops).run ch limit c.2
  | step => exact h.next ch c.2
  | reset => exact h.reset

/-- So the invariant holds after any commands. -/
theorem Sound.obeyAll {c : Machine × σ} (h : c.1.Sound n) (ch : Channels σ) (cs : List Command) :
    (obeyAll ch c cs).1.Sound n := by
  induction cs generalizing c with
  | nil => exact h
  | cons cmd cs ih => exact ih (h.obey ch cmd)

-- ── What a step can fail with ────────────────────────────────────────────────────

/-- The stream call of the next step raises an error. -/
def CallRaises (ch : Channels σ) (vm : Machine) (s : σ) (e : Raised) : Prop :=
  (vm.fetch = some (.operation .input) ∧ (ch.read s).1 = .error e)
  ∨ (vm.fetch = some (.operation .output)
    ∧ ∃ b, vm.tape.current = .ok b ∧ (ch.write b s).1 = .error e)

/-- The faults that a step may end with, each with what accounts for it. -/
inductive Accounted (ch : Channels σ) (vm : Machine) (s : σ) : Fault → Prop where
  | unmatchedOpen (hf : vm.fetch = some .opening) (hc : vm.tape.current = .ok 0)
      (hm : ∀ j, ¬ vm.program.Matched vm.ip j) :
      Accounted ch vm s (.unmatchedOpen vm.ip)
  | unmatchedClose (b : UInt8) (hf : vm.fetch = some .closing) (hc : vm.tape.current = .ok b)
      (hb : b ≠ 0) (hm : ∀ i, ¬ vm.program.Matched i vm.ip) :
      Accounted ch vm s (.unmatchedClose vm.ip)
  | exhausted (chunk : Chunk) (hf : vm.fetch = some (.operation .input))
      (hr : (ch.read s).1 = .ok chunk) (hv : chunk.first? = none) :
      Accounted ch vm s (.stream vm.ip .exhausted)
  | refused (b : UInt8) (report : Value) (hf : vm.fetch = some (.operation .output))
      (hc : vm.tape.current = .ok b) (hw : (ch.write b s).1 = .ok report)
      (hz : report.isZero = true) :
      Accounted ch vm s (.stream vm.ip .refused)
  | raised (e : Raised) (he : CallRaises ch vm s e) (hh : e.isHandled = true) :
      Accounted ch vm s (.stream vm.ip (.raised e))
  | passed (e : Raised) (he : CallRaises ch vm s e) (hh : e.isHandled = false) :
      Accounted ch vm s (.passed e)

/-- What becomes of an error that the call of a step raises is accounted for. -/
theorem accounted_ofRaised {e : Raised} (he : CallRaises ch vm s e) :
    Accounted ch vm s (.ofRaised vm.ip e) := by
  rcases Fault.ofRaised_cases vm.ip e with ⟨hh, hf⟩ | ⟨hh, hf⟩
  · rw [hf]
    exact .raised e he hh
  · rw [hf]
    exact .passed e he hh

/-- A step of a machine that keeps the invariant fails for one of the listed reasons, if what it
    reads is bytes, text, whole numbers or nothing. -/
theorem Sound.accounted (h : vm.Sound n) {f : Fault} (hf : (vm.step ch s).result = .error f)
    (hplain : ∀ chunk, (ch.read s).1 = .ok chunk → chunk.IsPlain) : Accounted ch vm s f := by
  have hcase := stepCase h.onTape ch s
  have hres : (vm.next ch s).1 = .error f := hf
  generalize vm.next ch s = r at hcase hres
  cases hcase with
  | ended => exact nomatch hres
  | performed => exact nomatch hres
  | refused op g s' hop hp =>
      obtain rfl : g = f := Except.error.inj hres
      have hperform := Elementary.performCase ch vm.ip h.onTape s op
      rw [hp] at hperform
      cases hperform with
      | misfit chunk e s' hr hv =>
          exact absurd hv ((hplain chunk (congrArg Prod.fst hr)).first?_ne_error e)
      | exhausted chunk s' hr hv => exact .exhausted chunk hop (congrArg Prod.fst hr) hv
      | unreadable e s' hr => exact accounted_ofRaised (Or.inl ⟨hop, congrArg Prod.fst hr⟩)
      | refused report s' hw hz =>
          exact .refused _ report hop h.onTape.current_eq (congrArg Prod.fst hw) hz
      | unwritable e s' hw =>
          exact accounted_ofRaised
            (Or.inr ⟨hop, _, h.onTape.current_eq, congrArg Prod.fst hw⟩)
  | entered => exact nomatch hres
  | skipped => exact nomatch hres
  | endless hop hc hj =>
      obtain rfl := Except.error.inj hres
      exact .unmatchedOpen hop hc
        ((Program.partnerRight_eq_none_iff (getElem?_of_fetch hop)).mp hj)
  | left => exact nomatch hres
  | repeated => exact nomatch hres
  | startless b hop hc hb hi =>
      obtain rfl := Except.error.inj hres
      exact .unmatchedClose b hop hc hb
        ((Program.partnerLeft_eq_none_iff (getElem?_of_fetch hop)).mp hi)
  | foreign x g hop hx =>
      obtain ⟨op, rfl⟩ := h.operations x (Array.mem_of_getElem? (getElem?_of_fetch hop))
      exact absurd rfl (hx op)

-- ── What holds between two commands ──────────────────────────────────────────────

/-- What holds of a machine that works on `n` cells before its next step on given streams. -/
structure Safe (ch : Channels σ) (n : Nat) (vm : Machine) (s : σ) : Prop where
  /-- The next place is in the program, or its end. -/
  ip_le      : vm.ip ≤ vm.program.size
  /-- The pointer is on the tape. -/
  pointer    : 0 ≤ vm.tape.pointer ∧ vm.tape.pointer < n
  /-- The tape has all its cells, and no more. -/
  size_eq    : vm.tape.cells.size = n
  /-- No cell is beyond the greatest value that it can hold. -/
  cells_le   : ∀ c ∈ vm.tape.cells, c.toNat ≤ cellMask
  /-- The current cell can be read. -/
  readable   : ∃ b, vm.tape.current = .ok b
  /-- The next operation can be traced, with the cells around the pointer. -/
  traceable  : ∀ x, vm.fetch = some x → ∃ event, vm.trace x = .ok event
  /-- The next step fails for no reason but those that are accounted for. -/
  accounted  : (∀ chunk, (ch.read s).1 = .ok chunk → chunk.IsPlain) →
    ∀ f, (vm.step ch s).result = .error f → Accounted ch vm s f

/-- The invariant is enough for a machine to be safe. -/
theorem Sound.safe (h : vm.Sound n) (ch : Channels σ) (s : σ) : Safe ch n vm s where
  ip_le     := h.ip_le
  pointer   := by
    rw [← h.size_eq]
    exact h.onTape
  size_eq   := h.size_eq
  cells_le  := fun c _ => Nat.le_of_lt_succ c.toNat_lt
  readable  := ⟨_, h.onTape.current_eq⟩
  traceable := by
    intro x hx
    obtain ⟨op, rfl⟩ := h.operations x (Array.mem_of_getElem? (getElem?_of_fetch hx))
    obtain ⟨w, -, hw⟩ := exists_trace h.onTape op
    exact ⟨_, hw⟩
  accounted := fun hplain f hf => h.accounted hf hplain

/-- **Whatever its owner asks of it, a machine is safe**: after any commands on any streams, failed
    ones among them. -/
theorem safe_of_commands (hn : 0 < n) (tracing : Bool) (ch : Channels σ) (s : σ)
    (cs : List Command) :
    Safe ch n (obeyAll ch (fresh n hn tracing, s) cs).1 (obeyAll ch (fresh n hn tracing, s) cs).2 :=
  ((sound_fresh hn tracing).obeyAll ch cs).safe ch _

/-- A traced machine of one cell, after a run that fails at its third operation, a step that fails
    there again, another program whose only step ends it, and a reset. -/
theorem safe_one_cell :
    let ch := Channels.ofHandles (.direct 0) (.direct 1) #[.vacant, .vacant]
    let c := obeyAll ch (fresh 1 Nat.one_pos true, #[.vacant, .vacant])
      [.run (some [.previous, .next, .input]) 9, .step, .load [.loopBack], .step, .reset]
    0 < 1 ∧ Safe ch 1 c.1 c.2 :=
  ⟨Nat.one_pos, safe_of_commands Nat.one_pos true _ _ _⟩

end Machine

end TapeMachine
