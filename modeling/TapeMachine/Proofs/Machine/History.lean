import Mathlib.Data.List.Induction
import TapeMachine.Machine.Demand
import TapeMachine.Proofs.Machine.Reachable

/-!
# Histories

A machine is used again and again: its owner loads programs, runs them to their end or not, makes
single steps, writes into the tape and puts the pointer anywhere, off the tape too. All of this is
forgotten by the next run. What a reset does not clear is the program, and with it stays what no act
can change, the number of cells and whether steps are traced (`Remains`). So **a run is that of a new
machine**, with the program that was supplied last.
-/

namespace TapeMachine.Machine

variable {σ : Type} {vm vm₀ : Machine} {p : Program}

-- ── Acts ─────────────────────────────────────────────────────────────────────────

/-- What the owner of a machine can do to it and to its tape. A program is any row of elements, and
    addresses are any numbers. -/
inductive Act where
  | load (p : Program)
  /-- A run of another program or of the one that is loaded, with a limit on its steps. -/
  | run (p? : Option Program) (limit : Nat)
  | step
  | reset
  /-- Write a number at an address, the pointer when none is given. -/
  | write (v : Int) (a? : Option Int)
  /-- Put the pointer somewhere, on the tape or off it. -/
  | point (a : Int)

/-- The program that an act supplies. -/
def Act.program? : Act → Option Program
  | load p   => some p
  | run p? _ => p?
  | _        => none

/-- The program that was supplied last, the empty one if none was. -/
def lastSupplied (acts : List Act) : Program :=
  (acts.filterMap Act.program?).getLast?.getD #[]

/-- Machine and streams after an act, whether it succeeded or not. -/
def act (ch : Channels σ) (c : Machine × σ) : Act → Machine × σ
  | .load p       => (c.1.load p, c.2)
  | .run p? limit =>
    let r := (p?.elim c.1 c.1.load).run ch limit c.2
    (r.machine, r.streams)
  | .step         =>
    let r := c.1.step ch c.2
    (r.machine, r.streams)
  | .reset        => (c.1.reset, c.2)
  | .write v a?   =>
    match c.1.tape.write v a? with
    | .ok t    => ({ c.1 with tape := t }, c.2)
    | .error _ => c
  | .point a      => ({ c.1 with tape := c.1.tape.setPointer a }, c.2)

/-- Machine and streams after some acts, one after the other. -/
def actAll (ch : Channels σ) (c : Machine × σ) (acts : List Act) : Machine × σ :=
  acts.foldl (act ch) c

-- ── What acts leave alone ────────────────────────────────────────────────────────

/-- One machine has the program `p` and is otherwise made as another one is. -/
structure Remains (vm₀ : Machine) (p : Program) (vm : Machine) : Prop where
  program : vm.program = p
  tracing : vm.tracing = vm₀.tracing
  size_eq : vm.tape.size = vm₀.tape.size

theorem remains_self (vm : Machine) : Remains vm vm.program vm :=
  ⟨rfl, rfl, rfl⟩

/-- A step changes nothing that remains, whether it succeeds or not. -/
theorem Remains.next (h : Remains vm₀ p vm) (ch : Channels σ) (s : σ) :
    Remains vm₀ p (vm.next ch s).2.1 where
  program := (program_next ch vm s).trans h.program
  tracing := (tracing_next ch vm s).trans h.tracing
  size_eq := (size_next ch vm s).trans h.size_eq

/-- A reset changes nothing that remains. -/
theorem Remains.reset (h : Remains vm₀ p vm) : Remains vm₀ p vm.reset :=
  ⟨h.program, h.tracing, Tape.size_reset.trans h.size_eq⟩

/-- Another program is all that a load changes. -/
theorem Remains.load (h : Remains vm₀ p vm) (q : Program) : Remains vm₀ q (vm.load q) :=
  ⟨rfl, h.tracing, h.size_eq⟩

/-- A run changes nothing that remains, wherever it ends. -/
theorem Remains.run (h : Remains vm₀ p vm) (ch : Channels σ) (limit : Nat) (s : σ) :
    Remains vm₀ p (vm.run ch limit s).machine := by
  rw [run_eq_conclude, machine_conclude]
  exact advanceFrom_invariant (fun _ s hvm => hvm.next ch s) h.reset

/-- An act changes the program to the one it supplies, and nothing that a reset would not clear. -/
theorem Remains.act {c : Machine × σ} (h : Remains vm₀ p c.1) (ch : Channels σ) (a : Act) :
    Remains vm₀ (a.program?.getD p) (act ch c a).1 := by
  cases a with
  | load q => exact h.load q
  | run q? limit =>
      cases q? with
      | none => exact h.run ch limit c.2
      | some q => exact (h.load q).run ch limit c.2
  | step => exact h.next ch c.2
  | reset => exact h.reset
  | write v a? =>
      rw [Machine.act]
      split
      · next t ht => exact ⟨h.program, h.tracing, (Tape.size_of_write ht).trans h.size_eq⟩
      · exact h
  | point a => exact ⟨h.program, h.tracing, h.size_eq⟩

/-- The last act supplies the last program, if it supplies any. -/
theorem lastSupplied_concat (acts : List Act) (a : Act) :
    lastSupplied (acts ++ [a]) = a.program?.getD (lastSupplied acts) := by
  rw [lastSupplied, lastSupplied, List.filterMap_append, List.getLast?_append]
  cases h : a.program? with
  | none => simp [h]
  | some p => simp [h]

/-- A new machine has been supplied with no program. -/
theorem remains_actAll (h : vm₀.program = #[]) (ch : Channels σ) (s : σ) (acts : List Act) :
    Remains vm₀ (lastSupplied acts) (actAll ch (vm₀, s) acts).1 := by
  induction acts using List.reverseRecOn with
  | nil =>
      show Remains vm₀ #[] vm₀
      rw [← h]
      exact remains_self vm₀
  | append_singleton acts a ih =>
      rw [lastSupplied_concat, actAll, List.foldl_append]
      exact ih.act ch a

-- ── Runs ─────────────────────────────────────────────────────────────────────────

/-- Two machines run alike: on any streams, also on some that take down the calls, and under any
    limit, they end in the same outcome, with the same machine, the same streams and the same
    reports. -/
def RunsAs (vm vm' : Machine) : Prop :=
  ∀ {σ : Type} (ch : Channels σ) (limit : Nat) (s : σ), vm.run ch limit s = vm'.run ch limit s

/-- A reset clears all that could tell a machine from a new one. -/
theorem Remains.runsAs (h : Remains vm₀ p vm) : RunsAs vm (vm₀.load p) := by
  intro σ ch limit s
  have hreset : vm.reset = (vm₀.load p).reset := by
    obtain ⟨q, i, t, tracing⟩ := vm
    obtain ⟨rfl, rfl, hsize⟩ := h
    have htape : t.reset = vm₀.tape.reset := Tape.reset_congr hsize
    show Machine.mk q 0 t.reset vm₀.tracing = Machine.mk q 0 vm₀.tape.reset vm₀.tracing
    rw [htape]
  rw [Machine.run, Machine.run, hreset]

/-- **A run does not depend on what was done to the machine before.** Of a program that it is given
    it is the run that a new machine makes, and without one it is that of the program supplied
    last. -/
theorem run_forgets_history {n : Nat} (hn : 0 < n) (tracing : Bool) (ch : Channels σ) (s : σ)
    (acts : List Act) :
    let c := actAll ch (fresh n hn tracing, s) acts
    (∀ p, RunsAs (c.1.load p) ((fresh n hn tracing).load p))
    ∧ RunsAs c.1 ((fresh n hn tracing).load (lastSupplied acts)) := by
  have hremains : Remains (fresh n hn tracing) (lastSupplied acts)
      (actAll ch (fresh n hn tracing, s) acts).1 := remains_actAll rfl ch s acts
  constructor
  · intro p
    exact (hremains.load p).runsAs
  · exact hremains.runsAs

/-- A machine of two cells whose run is cut short, whose tape is written to, and whose pointer is
    put off the tape, where the next step fails. Its own program is still the one it was run with. -/
theorem run_forgets_lost_pointer :
    let ops := Program.ofOperations [.next, .increment, .loopForward, .loopBack]
    let acts : List Act := [.load #[.empty], .run (some ops) 7, .write 300 (some (-1)), .point 9, .step]
    let c := actAll .prepared (fresh 2 Nat.two_pos false, {}) acts
    0 < 2 ∧ c.1.tape.pointer = 9 ∧ lastSupplied acts = ops
      ∧ RunsAs c.1 ((fresh 2 Nat.two_pos false).load ops) :=
  ⟨Nat.two_pos, rfl, rfl, (run_forgets_history Nat.two_pos false _ _ _).2⟩

end TapeMachine.Machine
