import TapeMachine.Proofs.Machine.Composition
import TapeMachine.Proofs.Machine.Symmetry

/-!
# Rotation

No cell of the tape is special. A machine on a tape that is turned by `k` cells goes **in lockstep
with the machine on the tape as it was**: at the same place of the program, with the same current
cell, the same stream calls and the same faults.

The turned tape can be made by the program itself. Behind `k` moves to the right a program runs on
a tape that is turned by `k` cells, `k` places further on: its brackets find the partners that they
find alone, and none if they have none there, because moves are no brackets (`next_behind`).
-/

namespace TapeMachine

variable {σ : Type} {ch : Channels σ} {vm : Machine} {s : σ} {p q : Program} {d j k n : Nat}

-- ── Behind a closed program ──────────────────────────────────────────────────────

namespace Machine

/-- The second machine is the first one in its program `q`, behind `p`. -/
def StandsBehind (p q : Program) (n : Nat) (c c' : Machine × σ) : Prop :=
  c.1.Sound n ∧ c.1.program = q ∧ c' = (c.1.within (p ++ q) p.size, c.2)

/-- **Behind a program without open loops a step is what it is alone**, but for where it faults. -/
theorem next_behind (hp : p.Closed) (h : vm.Sound n) (hq : vm.program = q) (ch : Channels σ)
    (s : σ) : (vm.within (p ++ q) p.size).next ch s
      = ((vm.next ch s).1.mapError (·.behind p.size),
          (vm.next ch s).2.1.within (p ++ q) p.size, (vm.next ch s).2.2) := by
  have hfragment : Program.Fragment vm.program (p ++ q) p.size := by
    rw [hq]
    exact Program.fragment_append_right p q
  by_cases hend : (vm.next ch s).1 = .ok false
  · -- Where the program alone ends, the whole does.
    have hf := (next_eq_false_iff h.onTape ch s).mp hend
    have hf' : (vm.within (p ++ q) p.size).fetch = none := by
      refine fetch_of_size_le ?_
      rw [within_program, within_ip, Array.size_append, h.fetch_eq_none_iff.mp hf, hq]
    rw [next_of_fetch_eq_none hf, next_of_fetch_eq_none hf']
    rfl
  · refine next_within hfragment h.onTape h.operations rfl hend ?_
    intro f _
    rw [hq]
    exact Fault.persists_behind p q fun _ _ => hp

theorem lockstep_behind (hp : p.Closed) (ch : Channels σ) (q : Program) (n : Nat) :
    Lockstep ch ch Always (·.behind p.size) (StandsBehind p q n) where
  result := by
    rintro ⟨vm, s⟩ _ ⟨h, hq, rfl⟩ -
    rw [next_behind hp h hq]
  kept := by
    rintro ⟨vm, s⟩ _ ⟨h, hq, rfl⟩ -
    refine ⟨h.next ch s, (program_next ch vm s).trans hq, ?_⟩
    rw [next_behind hp h hq]

theorem flush_behind (ch : Channels σ) (d ip : Nat) (s : σ) : flush ch (d + ip) s
    = ((flush ch ip s).1.mapError (·.behind d), (flush ch ip s).2) := by
  rw [Fault.behind_eq_mapPlace]
  exact flush_mapPlace (d + ·) ch ip s

theorem flushAlike_behind (ch : Channels σ) (p q : Program) (n : Nat) :
    FlushAlike ch ch (·.behind p.size) (StandsBehind p q n) where
  result := by
    rintro ⟨vm, s⟩ _ ⟨h, hq, rfl⟩
    rw [within_ip, flush_behind]
  kept := by
    rintro ⟨vm, s⟩ _ ⟨h, hq, rfl⟩
    rw [within_ip, flush_behind]
    exact ⟨h, hq, rfl⟩

-- ── Moves to the right ───────────────────────────────────────────────────────────

/-- A program that does nothing but move to the right. -/
def OnlyMoves (p : Program) : Prop :=
  ∀ i < p.size, p[i]? = some (.operation .next)

theorem onlyMoves_replicate (k : Nat) :
    OnlyMoves (.ofOperations (List.replicate k .next)) := by
  intro i hi
  have hk : i < k := by simpa [Program.ofOperations] using hi
  simp [Program.ofOperations, hk]

/-- Moves are no brackets. -/
theorem OnlyMoves.closed (h : OnlyMoves p) : p.Closed := by
  intro i hi
  exact nomatch (h i (Program.lt_size_of_getElem? hi)).symm.trans hi

/-- `j` moves to the right leave the pointer `j` cells further on, and nothing else changed. -/
theorem after_moves (hp : OnlyMoves p) (hvm : Program.Fragment p vm.program 0) (hj : j ≤ p.size)
    (ch : Channels σ) (s : σ) : vm.reset.after ch j s
      = some (vm.reset.moved j (vm.tape.reset.setPointer (j % vm.tape.size)), s) := by
  induction j with
  | zero =>
      rw [after_zero, Int.natCast_zero, Int.zero_emod]
      rfl
  | succ j ih =>
      have hon : (vm.tape.reset.setPointer (j % vm.tape.size)).OnTape := by
        show Tape.Within vm.tape.reset.size (j % vm.tape.size)
        rw [Tape.size_reset]
        exact Tape.within_emod vm.tape.size_pos _
      have hf : (vm.reset.moved j (vm.tape.reset.setPointer (j % vm.tape.size))).fetch
          = some (.operation Elementary.next.toOperation) := by
        refine fetch_operation ?_
        have hnext := hvm.getElem? (hp j hj)
        rw [Nat.zero_add] at hnext
        exact hnext
      have hmove : (vm.tape.reset.setPointer (j % vm.tape.size)).moveNext
          = vm.tape.reset.setPointer ((j + 1 : Nat) % vm.tape.size) := by
        rw [hon.moveNext_eq]
        show vm.tape.reset.setPointer ((j % vm.tape.size + 1) % vm.tape.reset.size) = _
        rw [Tape.size_reset, Int.emod_add_emod, Int.natCast_succ]
      refine after_trans (ih (Nat.le_of_succ_le hj)) (after_succ_of_ok ?_ 0)
      rw [next_elementary hon hf]
      exact congrArg (fun t => (Except.ok true, vm.reset.moved (j + 1) t, s)) hmove

-- ── On a turned tape ─────────────────────────────────────────────────────────────

/-- Two machines that stand at the same place of a program, one on a tape that is turned by `k`
    cells, with the same streams. -/
structure Rotated (ch : Channels σ) (k : Nat) (c c' : Machine × σ) : Prop where
  ip      : c'.1.ip = c.1.ip
  tape    : c.1.tape.RotatedBy k c'.1.tape
  current : c'.1.tape.current = c.1.tape.current
  streams : c'.2 = c.2
  /-- The next step comes to the same. -/
  result  : (c'.1.step ch c'.2).result = (c.1.step ch c.2).result

/-- A run behind `k` moves to the right, beside the run without them. -/
structure RunRotated (k : Nat) (r r' : Run σ) : Prop where
  /-- It ends in the same way, with its fault `k` places further on. -/
  outcome : r'.outcome = r.outcome.mapFault (·.behind k)
  steps   : r'.steps = r.steps + k
  ip      : r'.machine.ip = k + r.machine.ip
  tape    : r.machine.tape.RotatedBy k r'.machine.tape
  streams : r'.streams = r.streams

/-- A turn exchanges no operations. -/
theorem map_rotation (k : Nat) (p : Program) : p.map (Symmetry.rotation k).element = p := by
  have helement : (Symmetry.rotation k).element = id := by
    funext x
    cases x <;> rfl
  rw [helement, Array.map_id]

theorem renamed_rotation (k : Nat) (ch : Channels σ) :
    Channels.Renamed (Symmetry.rotation k).value Eq ch ch :=
  Channels.renamed_self (fun _ => rfl) ch

theorem Rotated.of_joins {c c' : Machine × σ} (h : (Symmetry.rotation k).Joins Eq c c')
    (ch : Channels σ) : Rotated ch k c c' where
  ip      := h.ip
  tape    := Tape.rotatedBy_iff.mpr h.tape
  current := (h.tape.current h.onTape).trans (Tape.map_eq_self (fun _ => rfl) _)
  streams := h.streams.symm
  result  := by
    obtain ⟨r, c₁, c₁', hn, hn', -⟩ := h.next (renamed_rotation k ch)
    exact (congrArg Prod.fst hn').trans (congrArg Prod.fst hn).symm

/-- However often both machines are called for a step, they stay beside one another. -/
theorem rotated_obeyAll {c c' : Machine × σ} (h : (Symmetry.rotation k).Joins Eq c c')
    (ch : Channels σ) (n : Nat) : Rotated ch k (obeyAll ch c (List.replicate n .step))
      (obeyAll ch c' (List.replicate n .step)) :=
  .of_joins ((Symmetry.lockstep (renamed_rotation k ch)).obeyAll h fun _ _ => trivial) ch

/-- Where the moves have led, the machine is about to go through its program on a turned tape. -/
theorem joined_behind_moves (p : Program) (hq : ∀ x ∈ q, ∃ op, x = .operation op) (vm : Machine)
    (s : σ) : ∃ c, (Symmetry.rotation p.size).Joins Eq ((vm.load q).reset, s) c
      ∧ StandsBehind p q vm.tape.size c ((vm.load (p ++ q)).reset.moved p.size
          (vm.tape.reset.setPointer (p.size % vm.tape.size)), s) := by
  have hplace : (Symmetry.rotation p.size).place vm.tape.size 0 = p.size % vm.tape.size := by
    show (1 * 0 + (p.size : Int)) % vm.tape.size = _
    rw [mul_zero, zero_add]
  have hrel := (Symmetry.rotation p.size).relates_reset vm.tape
  rw [hplace] at hrel
  refine ⟨((vm.load q).reset.moved 0 (vm.tape.reset.setPointer (p.size % vm.tape.size)), s),
    ?_, ?_, rfl, rfl⟩
  · exact {
      operations := hq
      program    := (map_rotation p.size q).symm
      ip         := rfl
      onTape     := Tape.onTape_reset
      tape       := hrel
      streams    := rfl }
  · exact {
      operations := hq
      ip_le      := Nat.zero_le _
      onTape     := hrel.onTape
      size_eq    := Tape.size_reset }

/-- **Behind moves to the right a program runs on a turned tape.** -/
theorem runRotated_behind_moves (hp : OnlyMoves p) (hq : ∀ x ∈ q, ∃ op, x = .operation op)
    (ch : Channels σ) (limit : Nat) (vm : Machine) (s : σ) :
    RunRotated p.size ((vm.load q).run ch limit s)
      ((vm.load (p ++ q)).run ch (p.size + limit) s) := by
  -- Between the two runs goes a third one: of the program alone, on the turned tape.
  have hren := renamed_rotation p.size ch
  have hlock := (Symmetry.lockstep hren).trans (lockstep_behind hp.closed ch q vm.tape.size)
  have hflush := (Symmetry.flushAlike hren).trans (flushAlike_behind ch p q vm.tape.size)
  have hfragment : Program.Fragment p (vm.load (p ++ q)).program 0 :=
    Program.fragment_append_left p q
  have hrun : Run.Beside _ _ p.size ((vm.load q).run ch limit s)
      ((vm.load (p ++ q)).run ch (p.size + limit) s) :=
    hlock.run_after hflush (after_moves hp hfragment (Nat.le_refl _) ch s)
      (joined_behind_moves p hq vm s) fun _ _ _ _ => trivial
  obtain ⟨c, hjoins, -, -, hbehind⟩ := hrun.related
  obtain ⟨hmachine, hstreams⟩ := Prod.mk.inj hbehind
  constructor
  · exact hrun.outcome
  · exact hrun.steps
  · rw [hmachine, within_ip, hjoins.ip]
  · rw [hmachine]
    exact Tape.rotatedBy_iff.mpr hjoins.tape
  · rw [hstreams]
    exact hjoins.streams.symm

/-- **No cell of the tape is special.** On a tape that is turned by `k` cells a machine does what it
    does on the tape as it was, however many steps it is asked for; and behind `k` moves to the
    right a program runs as it does alone, on a tape that is turned by `k` cells. -/
theorem rotation_is_symmetry {σ : Type} (ch : Channels σ) (ops : List Operation) (k : Nat) (s : σ) :
    (∀ (ip : Nat) (tracing : Bool) (t u : Tape) (n : Nat), t.OnTape → t.RotatedBy k u →
      Rotated ch.recorded k
        (obeyAll ch.recorded ({ program := .ofOperations ops, ip, tape := t, tracing }, (s, #[]))
          (List.replicate n .step))
        (obeyAll ch.recorded ({ program := .ofOperations ops, ip, tape := u, tracing }, (s, #[]))
          (List.replicate n .step)))
    ∧ ∀ (vm : Machine) (limit : Nat),
      RunRotated k ((vm.load (.ofOperations ops)).run ch.recorded limit (s, #[]))
        ((vm.load (.ofOperations (List.replicate k .next ++ ops))).run ch.recorded (k + limit)
          (s, #[])) := by
  constructor
  · intro ip tracing t u n hon hrot
    refine rotated_obeyAll ?_ ch.recorded n
    exact {
      operations := fun _ => exists_of_mem_ofOperations
      program    := (map_rotation k _).symm
      ip         := rfl
      onTape     := hon
      tape       := Tape.rotatedBy_iff.mp hrot
      streams    := rfl }
  · intro vm limit
    have hsize : (Program.ofOperations (List.replicate k .next)).size = k := by
      simp [Program.ofOperations]
    have hops : ∀ x ∈ Program.ofOperations ops, ∃ op, x = .operation op :=
      fun _ => exists_of_mem_ofOperations
    have hrun := runRotated_behind_moves (onlyMoves_replicate k) hops ch.recorded limit vm (s, #[])
    rw [hsize, ← ofOperations_append] at hrun
    exact hrun

/-- A tape of two cells, and the same tape turned by three cells. -/
theorem rotation_of_two_cells :
    let t : Tape := { cells := #[7, 0], pointer := 1, size_pos := by decide }
    let u : Tape := { cells := #[0, 7], pointer := 0, size_pos := by decide }
    let p : Program := .ofOperations [.output, .loopForward, .loopBack, .next, .loopBack]
    (t.OnTape ∧ t.RotatedBy 3 u) ∧ Rotated Channels.prepared.recorded 3
      (obeyAll Channels.prepared.recorded ({ program := p, ip := 0, tape := t }, ({}, #[]))
        (List.replicate 5 .step))
      (obeyAll Channels.prepared.recorded ({ program := p, ip := 0, tape := u }, ({}, #[]))
        (List.replicate 5 .step)) := by
  intro t u p
  have hon : t.OnTape := ⟨by decide, by decide⟩
  have hsize : (t.size : Int) = 2 := rfl
  have hrot : t.RotatedBy 3 u := by
    refine ⟨rfl, ?_, ?_⟩
    · rw [hsize]
      show (0 : Int) = (1 + 3) % 2
      decide
    · intro a h0 h1
      rw [hsize] at h1 ⊢
      have ha : a = 0 ∨ a = 1 := by omega
      rcases ha with rfl | rfl
      · show u.read (some 1) = .ok 7
        rfl
      · show u.read (some 0) = .ok 0
        rfl
  exact ⟨⟨hon, hrot⟩, (rotation_is_symmetry .prepared _ 3 {}).1 0 false t u 5 hon hrot⟩

end Machine

end TapeMachine
