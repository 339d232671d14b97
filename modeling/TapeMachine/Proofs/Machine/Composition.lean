import TapeMachine.Machine.Demand
import TapeMachine.Proofs.Bracket.Fragment
import TapeMachine.Proofs.Machine.Reachable

/-!
# Sequential composition

Two programs in a row, whatever their brackets are. A machine in the middle of one of them does
there what it would do in that program alone (`next_within`): places are counted from the front of
the whole, and a bracket that has a partner keeps it. So **the whole does what the first program
does and then, from where that ended, what the second does**, operation by operation
(`composes_in_sequence`).

Of the failures, those of a stream are the same wherever the program stands. A bracket that lacks a
partner may find one across the seam, and `Fault.Persists` says when it does not: a `loopBack` of the
first program never does and a `loopForward` of the second never does; a `loopBack` of the second
does not if the first leaves no loop open.
-/

namespace TapeMachine

-- ── Faults at other places ───────────────────────────────────────────────────────

namespace Fault

/-- The same fault `d` places further on. -/
def behind (d : Nat) : Fault → Fault
  | unmatchedOpen ip  => unmatchedOpen (d + ip)
  | unmatchedClose ip => unmatchedClose (d + ip)
  | stream ip why     => stream (d + ip) why
  | f                 => f

theorem behind_zero (f : Fault) : f.behind 0 = f := by
  cases f with
  | unmatchedOpen ip => rw [behind, Nat.zero_add]
  | unmatchedClose ip => rw [behind, Nat.zero_add]
  | stream ip why => rw [behind, Nat.zero_add]
  | _ => rfl

/-- The same fault with its place told in another way. -/
def mapPlace (g : Nat → Nat) : Fault → Fault
  | unmatchedOpen ip  => unmatchedOpen (g ip)
  | unmatchedClose ip => unmatchedClose (g ip)
  | stream ip why     => stream (g ip) why
  | f                 => f

/-- What a raised error becomes is about another place at another place. -/
theorem mapPlace_ofRaised (g : Nat → Nat) (ip : Nat) (e : Raised) :
    (ofRaised ip e).mapPlace g = ofRaised (g ip) e := by
  rw [ofRaised, ofRaised]
  split
  · rfl
  · rfl

theorem behind_eq_mapPlace (d : Nat) : behind d = mapPlace (d + ·) := by
  funext f
  cases f <;> rfl

/-- The bracket that a fault of `p` is about has no partner either in a `P` with `p` at place `d`. -/
def Persists (p P : Program) (d : Nat) : Fault → Prop
  | unmatchedOpen i  => (∀ j, ¬ p.Matched i j) → ∀ j, ¬ P.Matched (d + i) j
  | unmatchedClose j => j < p.size → (∀ i, ¬ p.Matched i j) → ∀ i, ¬ P.Matched i (d + j)
  | _                => True

/-- In the first of two programs every fault persists but a `loopForward` without a partner. -/
theorem persists_in_front (p q : Program) {f : Fault} (hf : ∀ k, f ≠ unmatchedOpen k) :
    f.Persists p (p ++ q) 0 := by
  cases f with
  | unmatchedOpen i => exact absurd rfl (hf i)
  | unmatchedClose j =>
      intro hj hm
      rw [Nat.zero_add]
      exact (Program.fragment_append_left p q).unmatched_of_front hj hm
  | _ => trivial

/-- In the second of two programs every fault persists, a `loopBack` without a partner if the first
    program leaves no loop open. -/
theorem persists_behind (p q : Program) {f : Fault} (hf : ∀ k, f = unmatchedClose k → p.Closed) :
    f.Persists q (p ++ q) p.size := by
  have hq := Program.fragment_append_right p q
  cases f with
  | unmatchedOpen i =>
      intro hm
      exact hq.unmatched_of_back Array.size_append hm
  | unmatchedClose j =>
      intro hj hm
      exact (Program.fragment_append_left p q).unmatched_behind_closed hq hj (hf j rfl) hm
  | _ => trivial

end Fault

/-- An elementary operation at another place does the same, but for the place that its fault tells. -/
theorem Elementary.perform_mapPlace {σ : Type} (op : Elementary) (ch : Channels σ) (g : Nat → Nat)
    (ip : Nat) (t : Tape) (s : σ) : op.perform ch (g ip) t s
      = ((op.perform ch ip t s).1.mapError (·.mapPlace g), (op.perform ch ip t s).2) := by
  cases op with
  | increment =>
      rw [perform, perform]
      cases t.increment <;> rfl
  | decrement =>
      rw [perform, perform]
      cases t.decrement <;> rfl
  | next => rfl
  | previous => rfl
  | input =>
      rw [perform, perform]
      rcases ch.read s with ⟨e | chunk, s'⟩
      · dsimp only [Except.mapError]
        rw [Fault.mapPlace_ofRaised]
      · dsimp only
        rcases chunk.first? with _ | _ | v
        · rfl
        · rfl
        · dsimp only
          cases t.write v none <;> rfl
  | output =>
      rw [perform, perform]
      cases t.current with
      | error e => rfl
      | ok b =>
          dsimp only
          rcases ch.write b s with ⟨e | report, s'⟩
          · dsimp only [Except.mapError]
            rw [Fault.mapPlace_ofRaised]
          · dsimp only
            split
            · rfl
            · rfl

/-- An operation that is no bracket does the same at another place, and fails about that place. -/
theorem Elementary.perform_behind {σ : Type} (op : Elementary) (ch : Channels σ) (d ip : Nat)
    (t : Tape) (s : σ) : op.perform ch (d + ip) t s
      = ((op.perform ch ip t s).1.mapError (·.behind d), (op.perform ch ip t s).2) := by
  rw [Fault.behind_eq_mapPlace]
  exact op.perform_mapPlace ch (d + ·) ip t s

namespace Machine

variable {σ : Type} {ch : Channels σ} {vm vm' : Machine} {s s' : σ} {p q P : Program}
  {d k m n : Nat} {r : Except Fault Bool}

/-- A flush at another place does the same, but for the place that its fault tells. -/
theorem flush_mapPlace (g : Nat → Nat) (ch : Channels σ) (ip : Nat) (s : σ) : flush ch (g ip) s
    = ((flush ch ip s).1.mapError (·.mapPlace g), (flush ch ip s).2) := by
  rw [flush, flush]
  cases ch.flush? with
  | none => rfl
  | some flush =>
      dsimp only
      rcases flush s with ⟨e | _, s'⟩
      · dsimp only [Except.mapError]
        rw [Fault.mapPlace_ofRaised]
      · rfl

-- ── A machine in a longer program ────────────────────────────────────────────────

/-- The machine in the middle of `P`, where its program begins at place `d`. -/
def within (vm : Machine) (P : Program) (d : Nat) : Machine :=
  { vm with program := P, ip := d + vm.ip }

@[simp] theorem within_program : (vm.within P d).program = P := rfl

@[simp] theorem within_ip : (vm.within P d).ip = d + vm.ip := rfl

@[simp] theorem within_tape : (vm.within P d).tape = vm.tape := rfl

/-- At the beginning of another program a machine only exchanges its own program for it. -/
theorem within_zero (vm : Machine) (P : Program) : vm.within P 0 = { vm with program := P } := by
  rw [within, Nat.zero_add]

/-- What there is to execute in the program alone is there in the whole. -/
theorem fetch_within {op : Operation} (h : Program.Fragment vm.program P d)
    (hf : vm.fetch = some (.operation op)) : (vm.within P d).fetch = some (.operation op) :=
  fetch_operation (h.getElem? (getElem?_of_fetch hf))

/-- **A step in a longer program is the step in the program alone**, if there is one to make and
    its fault persists. -/
theorem next_within (h : Program.Fragment vm.program P d)
    (hon : vm.tape.OnTape) (hops : ∀ x ∈ vm.program, ∃ op, x = .operation op)
    (hn : vm.next ch s = (r, vm', s')) (hr : r ≠ .ok false)
    (hf : ∀ f, r = .error f → f.Persists vm.program P d) :
    (vm.within P d).next ch s = (r.mapError (·.behind d), vm'.within P d, s') := by
  have hon' : (vm.within P d).tape.OnTape := hon
  have hcase := stepCase hon ch s
  rw [hn] at hcase
  cases hcase with
  | ended => exact absurd rfl hr
  | performed op t s' hop hp =>
      rw [next_elementary hon' (fetch_within h hop), within_ip, within_tape,
        Elementary.perform_behind, hp]
      rfl
  | refused op g s' hop hp =>
      rw [next_elementary hon' (fetch_within h hop), within_ip, within_tape,
        Elementary.perform_behind, hp]
      rfl
  | entered b hop hc hb =>
      rw [next_enter hon' (fetch_within h hop) hc hb]
      rfl
  | skipped j hop hc hj =>
      rw [next_skip hon' (fetch_within h hop) hc, within_program, within_ip,
        h.partnerRight (getElem?_of_fetch hop) hj]
      rfl
  | endless hop hc hj =>
      have hi := getElem?_of_fetch hop
      have hnone : P.partnerRight (d + vm.ip) = none := by
        rw [Program.partnerRight_eq_none_iff (h.getElem? hi)]
        exact hf _ rfl ((Program.partnerRight_eq_none_iff hi).mp hj)
      rw [next_skip hon' (fetch_within h hop) hc, within_program, within_ip, hnone]
      rfl
  | left hop hc =>
      rw [next_leave hon' (fetch_within h hop) hc]
      rfl
  | repeated b i hop hc hb hi =>
      rw [next_repeat hon' (fetch_within h hop) hc hb, within_program, within_ip,
        h.partnerLeft (getElem?_of_fetch hop) hi]
      rfl
  | startless b hop hc hb hi =>
      have hj := getElem?_of_fetch hop
      have hnone : P.partnerLeft (d + vm.ip) = none := by
        rw [Program.partnerLeft_eq_none_iff (h.getElem? hj)]
        exact hf _ rfl (Program.lt_size_of_getElem? hj)
          ((Program.partnerLeft_eq_none_iff hj).mp hi)
      rw [next_repeat hon' (fetch_within h hop) hc hb, within_program, within_ip, hnone]
      rfl
  | foreign x g hop hx =>
      obtain ⟨op, rfl⟩ := hops x (Array.mem_of_getElem? (getElem?_of_fetch hop))
      exact absurd rfl (hx op)

/-- Steps that succeed in a part of a program succeed in the whole, and go the same way. -/
theorem after_within (h : Program.Fragment vm.program P d) (hsound : vm.Sound k)
    (ha : vm.after ch n s = some (vm', s')) :
    (vm.within P d).after ch n s = some (vm'.within P d, s') := by
  induction n generalizing vm s with
  | zero =>
      obtain ⟨rfl, rfl⟩ := Prod.mk.inj (Option.some.inj ha)
      rfl
  | succ n ih =>
      rcases next_cases ch vm s with ⟨vm₁, s₁, hn⟩ | hn
      · have hprogram := program_next ch vm s
        have hsound' := hsound.next ch s
        rw [hn] at hprogram hsound'
        have hnext : (vm.within P d).next ch s = (.ok true, vm₁.within P d, s₁) :=
          next_within h hsound.onTape hsound.operations hn nofun fun _ hf => nomatch hf
        rw [after_succ_of_ok hn] at ha
        rw [after_succ_of_ok hnext]
        refine ih ?_ hsound' ha
        rw [show vm₁.program = vm.program from hprogram]
        exact h
      · rw [after_succ_of_ne hn] at ha
        exact nomatch ha

-- ── Where a program stops ────────────────────────────────────────────────────────

/-- The step after exactly `m` executed operations has the result `r` and leaves `vm'` and `s'`. -/
def ResultAfter (ch : Channels σ) (m : Nat) (vm : Machine) (s : σ) (r : Except Fault Bool)
    (vm' : Machine) (s' : σ) : Prop :=
  ∃ vm₁ s₁, vm.after ch m s = some (vm₁, s₁) ∧ vm₁.next ch s₁ = (r, vm', s')

/-- A result behind some steps is one behind these steps and those before them. -/
theorem ResultAfter.of_after {vm₁ : Machine} {s₁ : σ} (ha : vm.after ch m s = some (vm₁, s₁))
    (h : vm₁.ResultAfter ch n s₁ r vm' s') : vm.ResultAfter ch (m + n) s r vm' s' := by
  obtain ⟨vm₂, s₂, ha₂, hn⟩ := h
  exact ⟨vm₂, s₂, after_trans ha ha₂, hn⟩

/-- A program ends at its end, and nothing happens there. -/
theorem ResultAfter.ended (h : vm.ResultAfter ch m s (.ok false) vm' s') (hsound : vm.Sound k) :
    vm.after ch m s = some (vm', s') ∧ vm'.ip = vm.program.size := by
  obtain ⟨vm₁, s₁, ha, hn⟩ := h
  have hsound₁ := hsound.after ha
  have hf := (next_eq_false_iff hsound₁.onTape ch s₁).mp (congrArg Prod.fst hn)
  rw [next_of_fetch_eq_none hf] at hn
  obtain ⟨-, hn⟩ := Prod.mk.inj hn
  obtain ⟨rfl, rfl⟩ := Prod.mk.inj hn
  rw [← program_after ha]
  exact ⟨ha, hsound₁.fetch_eq_none_iff.mp hf⟩

/-- A program at the end of the whole ends it. -/
theorem ResultAfter.within_ended (hres : vm.ResultAfter ch m s (.ok false) vm' s')
    (hsound : vm.Sound k) (h : Program.Fragment vm.program P d)
    (hP : P.size = d + vm.program.size) :
    (vm.within P d).ResultAfter ch m s (.ok false) (vm'.within P d) s' := by
  obtain ⟨ha, hip⟩ := hres.ended hsound
  have hend : (vm'.within P d).fetch = none := by
    refine fetch_of_size_le (Nat.le_of_eq ?_)
    rw [within_program, within_ip, hip, hP]
  exact ⟨_, s', after_within h hsound ha, next_of_fetch_eq_none hend⟩

/-- A fault that persists stops the whole where it stops the program alone. -/
theorem ResultAfter.within_failed {f : Fault} (hres : vm.ResultAfter ch m s (.error f) vm' s')
    (hsound : vm.Sound k) (h : Program.Fragment vm.program P d)
    (hf : f.Persists vm.program P d) :
    (vm.within P d).ResultAfter ch m s (.error (f.behind d)) (vm'.within P d) s' := by
  obtain ⟨vm₁, s₁, ha, hn⟩ := hres
  have hsound₁ := hsound.after ha
  have hp := program_after ha
  refine ⟨vm₁.within P d, s₁, after_within h hsound ha, ?_⟩
  rw [← hp] at h hf
  refine next_within h hsound₁.onTape hsound₁.operations hn nofun ?_
  intro g hg
  obtain rfl := Except.error.inj hg
  exact hf

-- ── Two programs in a row ────────────────────────────────────────────────────────

/-- How a machine goes through `pq`, which is `p` and behind it `q`, and how through either. -/
structure InSequence (ch : Channels σ) (vm : Machine) (s : σ) (p q pq : Program) : Prop where
  /-- Where `p` ends, `q` is about to begin. -/
  reaches : ∀ m vm₁ s₁, (vm.load p).ResultAfter ch m s (.ok false) vm₁ s₁ →
    (vm.load pq).after ch m s = some ({ vm₁ with program := pq, ip := p.size }, s₁)
  /-- Where `q` ends then, the whole ends. -/
  ends : ∀ m vm₁ s₁ n vm₂ s₂, (vm.load p).ResultAfter ch m s (.ok false) vm₁ s₁ →
    (vm₁.load q).ResultAfter ch n s₁ (.ok false) vm₂ s₂ →
    (vm.load pq).ResultAfter ch (m + n) s (.ok false)
      { vm₂ with program := pq, ip := p.size + q.size } s₂
  /-- Where `q` fails then, the whole fails. -/
  fails : ∀ m vm₁ s₁ n f vm₂ s₂, (vm.load p).ResultAfter ch m s (.ok false) vm₁ s₁ →
    (vm₁.load q).ResultAfter ch n s₁ (.error f) vm₂ s₂ →
    (∀ k, f = .unmatchedClose k → p.Closed) →
    (vm.load pq).ResultAfter ch (m + n) s (.error (f.behind p.size))
      { vm₂ with program := pq, ip := p.size + vm₂.ip } s₂
  /-- Where `p` fails, the whole fails, unless a `loopForward` of `p` may have found a partner. -/
  fails_before : ∀ m f vm₁ s₁, (vm.load p).ResultAfter ch m s (.error f) vm₁ s₁ →
    (∀ k, f ≠ .unmatchedOpen k) →
    (vm.load pq).ResultAfter ch m s (.error f) { vm₁ with program := pq } s₁

/-- Operations that are loaded onto a tape with its pointer in place make a sound machine. -/
theorem sound_load (hon : vm.tape.OnTape) (ops : List Operation) :
    (vm.load (.ofOperations ops)).Sound vm.tape.size where
  operations := fun _ => exists_of_mem_ofOperations
  ip_le      := Nat.zero_le _
  onTape     := hon
  size_eq    := rfl

/-- Two rows of operations, one behind the other, make two programs one behind the other. -/
theorem ofOperations_append (p q : List Operation) :
    Program.ofOperations (p ++ q) = .ofOperations p ++ .ofOperations q := by
  simp [Program.ofOperations]

/-- Where the first program ends, the machine stands before the second, on the same tape. -/
theorem ResultAfter.after_append {vm₁ : Machine} {s₁ : σ}
    (hres : (vm.load p).ResultAfter ch m s (.ok false) vm₁ s₁) (hsound : (vm.load p).Sound k)
    (q : Program) : vm₁.tape.OnTape ∧ (vm.load (p ++ q)).after ch m s
      = some ((vm₁.load q).within (p ++ q) p.size, s₁) := by
  obtain ⟨ha, hip⟩ := hres.ended hsound
  refine ⟨(hsound.after ha).onTape, ?_⟩
  have hwhole := after_within (Program.fragment_append_left p q) hsound ha
  rw [within_zero, within_zero] at hwhole
  have hjoin : (vm₁.load q).within (p ++ q) p.size = { vm₁ with program := p ++ q } := by
    rw [within, show vm₁.ip = p.size from hip]
    rfl
  rw [hjoin]
  exact hwhole

/-- **Programs in a row are executed one after the other**, balanced or not. -/
theorem composes_in_sequence (hon : vm.tape.OnTape) (ch : Channels σ) (s : σ)
    (p q : List Operation) :
    InSequence ch vm s (.ofOperations p) (.ofOperations q) (.ofOperations (p ++ q)) := by
  rw [ofOperations_append]
  have hfirst := Program.fragment_append_left (.ofOperations p) (.ofOperations q)
  have hsecond := Program.fragment_append_right (.ofOperations p) (.ofOperations q)
  have hp := sound_load hon p
  constructor
  · intro m vm₁ s₁ hres
    exact (hres.after_append hp _).2
  · intro m vm₁ s₁ n vm₂ s₂ hres hres₂
    obtain ⟨hon₁, ha⟩ := hres.after_append hp (.ofOperations q)
    have hq := sound_load hon₁ q
    obtain ⟨-, hip⟩ := hres₂.ended hq
    have hend := ResultAfter.of_after ha (hres₂.within_ended hq hsecond Array.size_append)
    rw [within, hip] at hend
    exact hend
  · intro m vm₁ s₁ n f vm₂ s₂ hres hres₂ hclosed
    obtain ⟨hon₁, ha⟩ := hres.after_append hp (.ofOperations q)
    have hq := sound_load hon₁ q
    exact .of_after ha (hres₂.within_failed hq hsecond (Fault.persists_behind _ _ hclosed))
  · intro m f vm₁ s₁ hres hf
    have hfail := hres.within_failed hp hfirst (Fault.persists_in_front _ _ hf)
    rw [Fault.behind_zero, within_zero, within_zero] at hfail
    exact hfail

/-- `+ [` ends in its open loop. Behind it, `- [` goes on in there, and fails at its own bracket. -/
theorem sequence_of_open_loops :
    let vm := fresh 1 Nat.one_pos false
    let ops : List Operation := [.increment, .loopForward, .decrement, .loopForward]
    vm.tape.OnTape
      ∧ (vm.load (.ofOperations ops)).ResultAfter .prepared 3 {} (.error (.unmatchedOpen 3))
          { vm with program := .ofOperations ops, ip := 3 } {} := by
  have hon : (fresh 1 Nat.one_pos false).tape.OnTape := Tape.onTape_blank 1 Nat.one_pos
  have hp : ((fresh 1 Nat.one_pos false).load (.ofOperations [.increment, .loopForward])).ResultAfter
      .prepared 2 {} (.ok false)
      { program := .ofOperations [.increment, .loopForward], ip := 2,
        tape := (Tape.blank 1 Nat.one_pos).set ⟨0, Nat.one_pos⟩ 1 } {} :=
    ⟨_, _, rfl, rfl⟩
  have hq : ResultAfter .prepared 1
      { program := .ofOperations [.decrement, .loopForward],
        tape := (Tape.blank 1 Nat.one_pos).set ⟨0, Nat.one_pos⟩ 1 } {}
      (.error (.unmatchedOpen 1))
      { program := .ofOperations [.decrement, .loopForward], ip := 1,
        tape := .blank 1 Nat.one_pos } {} :=
    ⟨_, _, rfl, rfl⟩
  have hseq := composes_in_sequence hon .prepared {} [.increment, .loopForward]
    [.decrement, .loopForward]
  exact ⟨hon, hseq.fails 2 _ {} 1 _ _ {} hp hq nofun⟩

end Machine

end TapeMachine
