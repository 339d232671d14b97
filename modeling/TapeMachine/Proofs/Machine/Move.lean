import TapeMachine.Proofs.Machine.Step

/-!
# Moves

What a step does to a machine **wherever its pointer is**, on the tape or off it. A step that
executes something moves the machine to another place, with a tape of the same size; `Move` lists
these moves, each with its condition, and `moves_or_stays` says that a step which makes none of them
leaves the machine as it was. So no step touches the program or the number of cells, and a step that
fails touches nothing at all.
-/

namespace TapeMachine

/-- An elementary operation changes no number of cells, wherever the pointer is. -/
theorem Elementary.size_of_perform {σ : Type} {ch : Channels σ} {ip : Nat} {op : Elementary}
    {t t' : Tape} {s s' : σ} (h : op.perform ch ip t s = (.ok t', s')) : t'.size = t.size := by
  have hmap {r : Except AddressError Tape} (h : r.mapError Fault.address = .ok t') :
      r = .ok t' := by
    cases r with
    | ok u => exact congrArg Except.ok (Except.ok.inj h)
    | error e => exact nomatch h
  cases op with
  | increment => exact Tape.size_of_increment (hmap (congrArg Prod.fst h))
  | decrement => exact Tape.size_of_decrement (hmap (congrArg Prod.fst h))
  | next =>
      obtain ⟨ht, -⟩ := Prod.mk.inj h
      rw [← Except.ok.inj ht, Tape.size_moveNext]
  | previous =>
      obtain ⟨ht, -⟩ := Prod.mk.inj h
      rw [← Except.ok.inj ht, Tape.size_movePrevious]
  | input =>
      rw [perform_input] at h
      obtain ⟨ht, -⟩ := Prod.mk.inj h
      split at ht
      · cases ht
      · split at ht
        · cases ht
        · cases ht
        · exact Tape.size_of_write (hmap ht)
  | output =>
      rw [perform] at h
      split at h
      · cases h
      · split at h
        · cases h
        · obtain ⟨ht, -⟩ := Prod.mk.inj h
          split at ht
          · cases ht
          · rw [← Except.ok.inj ht]

namespace Machine

variable {σ : Type} {ch : Channels σ} {vm vm' : Machine} {s s' : σ} {op : Operation}

-- ── Where an operation leads ─────────────────────────────────────────────────────

/-- The moves of a machine: the next place and the tape there. -/
inductive Move (vm : Machine) : Nat → Tape → Prop where
  /-- An elementary operation goes on to the next place. -/
  | performed (op : Elementary) (t : Tape) (hf : vm.fetch = some (.operation op.toOperation))
      (ht : t.size = vm.tape.size) :
      Move vm (vm.ip + 1) t
  /-- A loop is entered. -/
  | entered (b : UInt8) (hf : vm.fetch = some .opening) (hc : vm.tape.current = .ok b)
      (hb : b ≠ 0) :
      Move vm (vm.ip + 1) vm.tape
  /-- A loop is left out. -/
  | skipped (j : Nat) (hf : vm.fetch = some .opening) (hc : vm.tape.current = .ok 0)
      (hj : vm.program.partnerRight vm.ip = some j) :
      Move vm (j + 1) vm.tape
  /-- A loop is over. -/
  | left (hf : vm.fetch = some .closing) (hc : vm.tape.current = .ok 0) :
      Move vm (vm.ip + 1) vm.tape
  /-- A loop is repeated. -/
  | repeated (b : UInt8) (i : Nat) (hf : vm.fetch = some .closing)
      (hc : vm.tape.current = .ok b) (hb : b ≠ 0)
      (hi : vm.program.partnerLeft vm.ip = some i) :
      Move vm (i + 1) vm.tape

/-- A move keeps the number of cells. -/
theorem Move.size_eq {k : Nat} {t : Tape} (h : vm.Move k t) : t.size = vm.tape.size := by
  cases h with
  | performed op t hf ht => exact ht
  | _ => rfl

/-- An operation that succeeds makes a move, one that fails leaves the machine as it was. -/
theorem execute_cases (hf : vm.fetch = some (.operation op)) (ch : Channels σ) (s : σ) :
    (∃ k t s', vm.Move k t ∧ vm.execute ch op s = (.ok (), vm.moved k t, s'))
      ∨ ∃ f s', vm.execute ch op s = (.error f, vm, s') := by
  rcases op.elementary_or_bracket with ⟨e, rfl⟩ | rfl | rfl
  · rw [execute_toOperation]
    rcases hp : e.perform ch vm.ip vm.tape s with ⟨f | t, s'⟩
    · exact Or.inr ⟨f, s', rfl⟩
    · exact Or.inl ⟨_, t, s', .performed e t hf (Elementary.size_of_perform hp), rfl⟩
  · rw [execute, openLoop]
    cases hc : vm.tape.current with
    | error e => exact Or.inr ⟨_, s, rfl⟩
    | ok b =>
        dsimp only
        split
        · next hb =>
            subst hb
            cases hj : vm.program.partnerRight vm.ip with
            | none => exact Or.inr ⟨_, s, rfl⟩
            | some j => exact Or.inl ⟨_, _, s, .skipped j hf hc hj, rfl⟩
        · next hb => exact Or.inl ⟨_, _, s, .entered b hf hc hb, rfl⟩
  · rw [execute, closeLoop]
    cases hc : vm.tape.current with
    | error e => exact Or.inr ⟨_, s, rfl⟩
    | ok b =>
        dsimp only
        split
        · next hb =>
            subst hb
            exact Or.inl ⟨_, _, s, .left hf hc, rfl⟩
        · next hb =>
            cases hi : vm.program.partnerLeft vm.ip with
            | none => exact Or.inr ⟨_, s, rfl⟩
            | some i => exact Or.inl ⟨_, _, s, .repeated b i hf hc hb hi, rfl⟩

/-- **A step makes one of the moves, or leaves the machine as it was.** -/
theorem moves_or_stays (ch : Channels σ) (vm : Machine) (s : σ) :
    (∃ k t s', vm.Move k t ∧ vm.next ch s = (.ok true, vm.moved k t, s'))
      ∨ ∃ r s', r ≠ .ok true ∧ vm.next ch s = (r, vm, s') := by
  have hfalse : (.ok false : Except Fault Bool) ≠ .ok true := nofun
  have herror (f : Fault) : (.error f : Except Fault Bool) ≠ .ok true := nofun
  simp only [next, step]
  cases hf : vm.fetch with
  | none => exact Or.inr ⟨.ok false, s, hfalse, rfl⟩
  | some x =>
      dsimp only
      cases vm.trace? x with
      | error f => exact Or.inr ⟨.error f, s, herror _, rfl⟩
      | ok e? =>
          cases x with
          | operation op =>
              dsimp only
              rcases execute_cases hf ch s with ⟨k, t, s', hmove, he⟩ | ⟨f, s', he⟩
              · rw [he]
                exact Or.inl ⟨k, t, s', hmove, rfl⟩
              · rw [he]
                exact Or.inr ⟨.error f, s', herror _, rfl⟩
          | token t => exact Or.inr ⟨.error (.foreign (.token t)), s, herror _, rfl⟩
          | bare v => exact Or.inr ⟨.error (.foreign (.bare v)), s, herror _, rfl⟩
          | empty => exact Or.inr ⟨.error (.foreign .empty), s, herror _, rfl⟩

-- ── What a step leaves alone ─────────────────────────────────────────────────────

/-- A step that executes an operation is a move. -/
theorem move_of_next (h : vm.next ch s = (.ok true, vm', s')) :
    ∃ k t, vm.Move k t ∧ vm' = vm.moved k t := by
  rcases moves_or_stays ch vm s with ⟨k, t, s'', hmove, hn⟩ | ⟨r, s'', hr, hn⟩
  · rw [hn] at h
    exact ⟨k, t, hmove, (congrArg (·.2.1) h).symm⟩
  · rw [hn] at h
    exact absurd (congrArg Prod.fst h) hr

/-- **What fails or executes nothing leaves the machine as it was.** -/
theorem machine_next_of_ne (h : (vm.next ch s).1 ≠ .ok true) : (vm.next ch s).2.1 = vm := by
  rcases moves_or_stays ch vm s with ⟨k, t, s', -, hn⟩ | ⟨r, s', -, hn⟩
  · rw [hn] at h
    exact absurd rfl h
  · rw [hn]

/-- What holds of a machine and of all machines that a move makes of it holds after a step. -/
theorem next_induction {P : Machine → Prop} (h : P vm)
    (hmove : ∀ k t, vm.Move k t → P (vm.moved k t)) (ch : Channels σ) (s : σ) :
    P (vm.next ch s).2.1 := by
  rcases moves_or_stays ch vm s with ⟨k, t, s', hm, hn⟩ | ⟨r, s', -, hn⟩
  · rw [hn]
    exact hmove k t hm
  · rw [hn]
    exact h

/-- A step keeps the program. -/
theorem program_next (ch : Channels σ) (vm : Machine) (s : σ) :
    (vm.next ch s).2.1.program = vm.program :=
  next_induction (P := fun vm' => vm'.program = vm.program) rfl (fun _ _ _ => rfl) ch s

/-- A step keeps the machine traced or untraced. -/
theorem tracing_next (ch : Channels σ) (vm : Machine) (s : σ) :
    (vm.next ch s).2.1.tracing = vm.tracing :=
  next_induction (P := fun vm' => vm'.tracing = vm.tracing) rfl (fun _ _ _ => rfl) ch s

/-- A step keeps the number of cells. -/
theorem size_next (ch : Channels σ) (vm : Machine) (s : σ) :
    (vm.next ch s).2.1.tape.size = vm.tape.size :=
  next_induction (P := fun vm' => vm'.tape.size = vm.tape.size) rfl
    (fun _ _ hmove => hmove.size_eq) ch s

end Machine

end TapeMachine
