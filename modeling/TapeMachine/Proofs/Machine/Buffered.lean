import TapeMachine.Proofs.Device.Buffer
import TapeMachine.Proofs.Machine.Traffic

/-!
# Runs between two buffers

A machine that reads one buffer of bytes and writes another. Since its calls are its executed
operations, the two buffers are an account of them: the input stands **as far on as there were
reads**, and the output holds **what the writes wrote**. `Tally` says so, and every single step
keeps it (`Tally.next`).

Reading fails exactly where the input is used up, and writing never fails.
-/

namespace TapeMachine

namespace Machine

variable {input output : Handle} {ds ds' ds₀ : Devices} {w : Array UInt8} {past : List Demand}
  {vm vm' : Machine} {n limit : Nat}

/-- The two buffers after some demands have been met. -/
structure Tally (input output : Handle) (w : Array UInt8) (past : List Demand) (ds : Devices) :
    Prop where
  distinct : input.place ≠ output.place
  taken    : ds[input.place]? = some (.bytes { contents := w, position := past.count .read })
  given    : ds[output.place]? = some (.bytes
    { contents := (Demand.written past).toArray
      position := (Demand.written past).length })
  within   : past.count .read ≤ w.size

theorem tally_nil (hne : input.place ≠ output.place)
    (hin : ds[input.place]? = some (.bytes { contents := w }))
    (hout : ds[output.place]? = some (.bytes {})) : Tally input output w [] ds where
  distinct := hne
  taken    := hin
  given    := hout
  within   := Nat.zero_le _

-- ── Steps ────────────────────────────────────────────────────────────────────────

/-- An `input` stores the byte that its buffer is at. -/
theorem next_input_at (hin : ds[input.place]? = some (.bytes { contents := w, position := n }))
    (hon : vm.tape.OnTape) (hf : vm.fetch = some (.operation .input)) (hn : n < w.size) :
    vm.next (.ofHandles input output ds₀) ds
      = (.ok true, vm.moved (vm.ip + 1) (vm.tape.set hon.index w[n]),
          ds.setIfInBounds input.place (.bytes { contents := w, position := n + 1 })) := by
  have hread : (Channels.ofHandles input output ds₀).read ds
      = (.ok (.bytes [w[n]]), ds.setIfInBounds input.place
          (.bytes { contents := w, position := n + 1 })) := by
    rw [Channels.read_ofHandles hin, Array.getElem?_eq_getElem hn]
    rfl
  have hfirst : (Chunk.bytes [w[n]]).first? = some (.ok w[n].toNat) := rfl
  rw [Machine.next_input hon hf, hread]
  dsimp only
  rw [hfirst]
  dsimp only
  rw [Tape.ofInt_toNat]

/-- An `input` fails when its buffer is used up, and leaves it so. -/
theorem next_input_at_end
    (hin : ds[input.place]? = some (.bytes { contents := w, position := n }))
    (hon : vm.tape.OnTape) (hf : vm.fetch = some (.operation .input)) (hn : w.size ≤ n) :
    vm.next (.ofHandles input output ds₀) ds = (.error (.stream vm.ip .exhausted), vm, ds) := by
  have hread : (Channels.ofHandles input output ds₀).read ds = (.ok (.bytes []), ds) := by
    have hnone : w[n]? = none := Array.getElem?_eq_none hn
    rw [Channels.read_ofHandles hin, hnone]
    exact Prod.ext rfl (Devices.setIfInBounds_same hin)
  rw [Machine.next_input hon hf, hread]
  rfl

theorem Tally.next_input (h : Tally input output w past ds) (hon : vm.tape.OnTape)
    (hf : vm.fetch = some (.operation .input)) (hk : past.count .read < w.size) :
    vm.next (.ofHandles input output ds₀) ds
      = (.ok true, vm.moved (vm.ip + 1) (vm.tape.set hon.index w[past.count .read]),
          ds.setIfInBounds input.place
            (.bytes { contents := w, position := past.count .read + 1 })) :=
  next_input_at h.taken hon hf hk

theorem Tally.next_input_of_eq (h : Tally input output w past ds) (hon : vm.tape.OnTape)
    (hf : vm.fetch = some (.operation .input)) (hk : past.count .read = w.size) :
    vm.next (.ofHandles input output ds₀) ds = (.error (.stream vm.ip .exhausted), vm, ds) :=
  next_input_at_end h.taken hon hf (Nat.le_of_eq hk.symm)

/-- An `output` adds the current cell to the output. -/
theorem Tally.next_output (h : Tally input output w past ds) (hon : vm.tape.OnTape)
    (hf : vm.fetch = some (.operation .output)) :
    vm.next (.ofHandles input output ds₀) ds
      = (.ok true, vm.moved (vm.ip + 1) vm.tape, ds.setIfInBounds output.place (.bytes
          { contents := (Demand.written past).toArray.push (vm.tape.get hon.index)
            position := (Demand.written past).length + 1 })) := by
  have hwrite : (Channels.ofHandles input output ds₀).write (vm.tape.get hon.index) ds
      = (.ok (.whole 1), ds.setIfInBounds output.place (.bytes
          { contents := (Demand.written past).toArray.push (vm.tape.get hon.index)
            position := (Demand.written past).length + 1 })) :=
    Channels.write_ofHandles h.given _
  rw [Machine.next_output hon hf hon.current_eq, hwrite]
  rfl

theorem Tally.read (h : Tally input output w past ds) (hk : past.count .read < w.size) :
    Tally input output w (past ++ [.read]) (ds.setIfInBounds input.place
      (.bytes { contents := w, position := past.count .read + 1 })) := by
  have hcount : (past ++ [Demand.read]).count .read = past.count .read + 1 := by
    rw [List.count_append, List.count_singleton_self]
  have hwritten : Demand.written (past ++ [.read]) = Demand.written past := by
    rw [Demand.written, List.filterMap_append]
    exact List.append_nil _
  refine ⟨h.distinct, ?_, ?_, ?_⟩
  · rw [hcount]
    exact Devices.getElem?_setIfInBounds_self h.taken _
  · rw [hwritten]
    exact (Array.getElem?_setIfInBounds_ne h.distinct).trans h.given
  · rw [hcount]
    exact hk

theorem Tally.write (h : Tally input output w past ds) (b : UInt8) :
    Tally input output w (past ++ [.write b]) (ds.setIfInBounds output.place (.bytes
      { contents := (Demand.written past).toArray.push b
        position := (Demand.written past).length + 1 })) := by
  have hcount : (past ++ [Demand.write b]).count .read = past.count .read := by
    rw [List.count_append, List.count_singleton, if_neg (by simp), Nat.add_zero]
  have hwritten : Demand.written (past ++ [.write b]) = Demand.written past ++ [b] :=
    List.filterMap_append
  refine ⟨h.distinct, ?_, ?_, ?_⟩
  · rw [hcount]
    exact (Array.getElem?_setIfInBounds_ne h.distinct.symm).trans h.taken
  · rw [hwritten, List.length_append, ← List.push_toArray]
    exact Devices.getElem?_setIfInBounds_self h.given _
  · rw [hcount]
    exact h.within

/-- An executed operation keeps the account, with what it demanded. -/
theorem Tally.next (h : Tally input output w past ds) (hon : vm.tape.OnTape)
    (hn : vm.next (.ofHandles input output ds₀) ds = (.ok true, vm', ds')) :
    Tally input output w (past ++ vm.demand?.toList) ds' := by
  by_cases hi : vm.fetch = some (.operation .input)
  · rcases Nat.eq_or_lt_of_le h.within with hk | hk
    · rw [h.next_input_of_eq hon hi hk] at hn
      exact nomatch hn
    · rw [h.next_input hon hi hk] at hn
      obtain ⟨-, hn'⟩ := Prod.mk.inj hn
      obtain ⟨-, rfl⟩ := Prod.mk.inj hn'
      rw [demand?_input hi]
      exact h.read hk
  · by_cases ho : vm.fetch = some (.operation .output)
    · rw [h.next_output hon ho] at hn
      obtain ⟨-, hn'⟩ := Prod.mk.inj hn
      obtain ⟨-, rfl⟩ := Prod.mk.inj hn'
      rw [demand?_output hon ho]
      exact h.write _
    · have hs := streams_next hon (.ofHandles input output ds₀) ds
      rw [hn, demand?_other hi ho] at hs
      obtain rfl : ds' = ds := hs
      rw [demand?_other hi ho, Option.toList_none, List.append_nil]
      exact h

/-- A step that executes nothing leaves the buffers as they were. -/
theorem Tally.streams_next_of_ne (h : Tally input output w past ds) (hon : vm.tape.OnTape)
    (hn : (vm.next (.ofHandles input output ds₀) ds).1 ≠ .ok true) :
    (vm.next (.ofHandles input output ds₀) ds).2.2 = ds := by
  by_cases hi : vm.fetch = some (.operation .input)
  · rcases Nat.eq_or_lt_of_le h.within with hk | hk
    · rw [h.next_input_of_eq hon hi hk]
    · rw [h.next_input hon hi hk] at hn
      exact absurd rfl hn
  · by_cases ho : vm.fetch = some (.operation .output)
    · rw [h.next_output hon ho] at hn
      exact absurd rfl hn
    · rw [streams_next hon, demand?_other hi ho]
      rfl

-- ── Runs ─────────────────────────────────────────────────────────────────────────

/-- The account is right after any number of executed operations. -/
theorem Tally.after (h : Tally input output w past ds) (hon : vm.tape.OnTape)
    (ha : vm.after (.ofHandles input output ds₀) n ds = some (vm', ds')) :
    Tally input output w (past ++ vm.demands (.ofHandles input output ds₀) n ds) ds' := by
  induction n generalizing past vm ds with
  | zero =>
      obtain ⟨-, rfl⟩ := Prod.mk.inj (Option.some.inj ha)
      have hnil : vm.demands (.ofHandles input output ds₀) 0 ds = [] := rfl
      rw [hnil, List.append_nil]
      exact h
  | succ n ih =>
      rcases next_cases (.ofHandles input output ds₀) vm ds with ⟨vm₁, ds₁, hn⟩ | hn
      · rw [after_succ_of_ok hn] at ha
        rw [demands_succ_of_ok hn, ← List.append_assoc]
        have hon' := onTape_next hon (.ofHandles input output ds₀) ds
        rw [hn] at hon'
        exact ih (h.next hon hn) hon' ha
      · rw [after_succ_of_ne hn] at ha
        exact nomatch ha

/-- A flush finds nothing to do for a buffer. -/
theorem flush_buffer {out : Array UInt8} {k : Nat}
    (h : ds[output.place]? = some (.bytes { contents := out, position := k })) (ip : Nat) :
    flush (.ofHandles input output ds₀) ip ds = (.ok (), ds) := by
  simp only [flush, Channels.ofHandles]
  split
  · rfl
  · next known hknown =>
      split at hknown
      · obtain rfl := Option.some.inj hknown
        rw [Channels.flush_ofHandles h]
      · cases hknown

theorem Tally.streams_conclude {r : Run Devices} (h : Tally input output w past r.streams) :
    (conclude (.ofHandles input output ds₀) r).streams = r.streams := by
  rw [conclude]
  split
  · rw [flush_buffer h.given]
  · rfl
  · rfl

/-- A run leaves what its executed operations have left, wherever it stops. -/
theorem Tally.after_run (h : Tally input output w [] ds) (vm : Machine) (limit : Nat) :
    vm.reset.after (.ofHandles input output ds₀)
        (vm.run (.ofHandles input output ds₀) limit ds).steps ds
      = some ((vm.run (.ofHandles input output ds₀) limit ds).machine,
          (vm.run (.ofHandles input output ds₀) limit ds).streams) := by
  have hreset : vm.reset.tape.OnTape := Tape.onTape_reset
  have hcourse : vm.reset.after (.ofHandles input output ds₀)
      (vm.course (.ofHandles input output ds₀) limit ds).steps ds
        = some ((vm.course (.ofHandles input output ds₀) limit ds).machine,
            (vm.course (.ofHandles input output ds₀) limit ds).streams) := by
    by_cases ho : (vm.course (.ofHandles input output ds₀) limit ds).outcome = .unfinished
    · obtain ⟨hsteps, ha⟩ := after_of_course ho
      rw [hsteps]
      exact ha
    · obtain ⟨r, ds', -, hr, -, ha, hn⟩ := stop_of_course ho
      have hstop : ((vm.course (.ofHandles input output ds₀) limit ds).machine.next
          (.ofHandles input output ds₀) ds').1 ≠ .ok true := by
        rw [hn]
        exact hr
      have hsame := (h.after hreset ha).streams_next_of_ne (onTape_after hreset ha) hstop
      rw [hn] at hsame
      rw [ha, ← hsame]
  rw [run_eq_conclude, steps_conclude, machine_conclude,
    (h.after hreset hcourse).streams_conclude]
  exact hcourse

/-- What a run between two buffers does with them. -/
structure KeepsTally (input output : Handle) (w : Array UInt8) (vm : Machine) (ds : Devices) :
    Prop where
  /-- After any number of executed operations the input stands as far on as there were reads, and
      the output holds the bytes written. -/
  tally     : ∀ n vm' ds', vm.reset.after (.ofHandles input output ds) n ds = some (vm', ds') →
    Tally input output w (vm.reset.demands (.ofHandles input output ds) n ds) ds'
  /-- An `input` with `k` reads before it stores byte `k`, if there is one. -/
  stores    : ∀ n vm' ds' k, vm.reset.after (.ofHandles input output ds) n ds = some (vm', ds') →
    vm'.fetch = some (.operation .input) →
    (vm.reset.demands (.ofHandles input output ds) n ds).count .read = k → (hk : k < w.size) →
    ∃ t ds'', vm'.next (.ofHandles input output ds) ds' = (.ok true, vm'.moved (vm'.ip + 1) t, ds'')
      ∧ vm'.tape.write w[k].toNat none = .ok t ∧ t.current = .ok w[k]
  /-- It finds the input exhausted exactly if every byte has been read. -/
  exhausted : ∀ n vm' ds', vm.reset.after (.ofHandles input output ds) n ds = some (vm', ds') →
    vm'.fetch = some (.operation .input) →
    ((vm'.step (.ofHandles input output ds) ds').result = .error (.stream vm'.ip .exhausted)
      ↔ (vm.reset.demands (.ofHandles input output ds) n ds).count .read = w.size)
  /-- A run leaves what its executed operations have left, wherever it stops. -/
  left      : ∀ limit, let r := vm.run (.ofHandles input output ds) limit ds
    vm.reset.after (.ofHandles input output ds) r.steps ds = some (r.machine, r.streams)

/-- A run between two buffers that are separate, and new, is accounted for by its operations. -/
theorem keepsTally_of_buffers (hne : input.place ≠ output.place)
    (hin : ds[input.place]? = some (.bytes { contents := w }))
    (hout : ds[output.place]? = some (.bytes {})) (vm : Machine) :
    KeepsTally input output w vm ds := by
  have hreset : vm.reset.tape.OnTape := Tape.onTape_reset
  have htally {n : Nat} {vm' : Machine} {ds' : Devices}
      (ha : vm.reset.after (.ofHandles input output ds) n ds = some (vm', ds')) :
      Tally input output w (vm.reset.demands (.ofHandles input output ds) n ds) ds' :=
    (tally_nil hne hin hout).after hreset ha
  refine ⟨fun n vm' ds' ha => htally ha, ?_, ?_, ?_⟩
  · rintro n vm' ds' k ha hf rfl hk
    have hon := onTape_after hreset ha
    refine ⟨_, _, (htally ha).next_input hon hf hk, ?_, hon.current_set _⟩
    rw [hon.write_eq, Tape.ofInt_toNat]
  · intro n vm' ds' ha hf
    have hon := onTape_after hreset ha
    have h := htally ha
    show (vm'.next (.ofHandles input output ds) ds').1 = _ ↔ _
    rcases Nat.eq_or_lt_of_le h.within with hk | hk
    · rw [h.next_input_of_eq hon hf hk]
      exact iff_of_true rfl hk
    · rw [h.next_input hon hf hk]
      exact iff_of_false nofun (Nat.ne_of_lt hk)
  · intro limit
    exact (tally_nil hne hin hout).after_run vm limit

/-- **The calls of a run are its executed operations**, for every program and all streams; and
    between two separate buffers the run keeps the account of them. -/
theorem calls_are_executed_operations :
    (∀ {σ : Type} (ch : Channels σ) (ops : List Operation) (vm : Machine) (limit : Nat) (s : σ),
      Traffic ch (vm.load (.ofOperations ops)) limit s)
    ∧ ∀ (input output : Handle) (w : Array UInt8) (ds : Devices) (ops : List Operation)
        (vm : Machine), input.place ≠ output.place →
      ds[input.place]? = some (.bytes { contents := w }) → ds[output.place]? = some (.bytes {}) →
      KeepsTally input output w (vm.load (.ofOperations ops)) ds := by
  constructor
  · intro σ ch ops vm limit s
    exact traffic_of_operations (fun _ => exists_of_mem_ofOperations) ch limit s
  · intro input output w ds ops vm hne hin hout
    exact keepsTally_of_buffers hne hin hout _

/-- A program that reads a byte, writes it twice and reads again, between a buffer of one byte and
    an empty one that is held by a shared handle. -/
theorem calls_between_two_buffers :
    let input := Handle.direct 0
    let output := Handle.shared (.words "out") (.direct 1)
    let ds : Devices := #[.bytes { contents := #[65] }, .bytes {}]
    let vm := (fresh 1 Nat.one_pos false).load (.ofOperations [.input, .output, .output, .input])
    (input.place ≠ output.place ∧ ds[input.place]? = some (.bytes { contents := #[65] })
      ∧ ds[output.place]? = some (.bytes {})) ∧ KeepsTally input output #[65] vm ds :=
  ⟨⟨by decide, rfl, rfl⟩, calls_are_executed_operations.2 _ _ _ _ _ _ (by decide) rfl rfl⟩

end Machine

end TapeMachine
