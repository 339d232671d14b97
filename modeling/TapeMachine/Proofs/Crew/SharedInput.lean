import TapeMachine.Proofs.Crew.SharedOutput
import TapeMachine.Proofs.Machine.Buffered

/-!
# A shared input

Engines with one input between them, a buffer whose bytes they take as they come to it. Each byte
goes **to one engine and in its order**: after any turns, those that were taken are a beginning of
the buffer, which stands right behind them (`Deals`). The engine whose turn it is gets the next one,
and when there is none left its step fails and nothing else changes.

`engines_do_not_disturb` puts this beside what holds of a shared output.
-/

namespace TapeMachine.Crew

variable {ι : Type} {c : Crew ι} {i : ι} {q : Nat} {w : Array UInt8} {bs : List UInt8}

/-- All engines have the same input, at place `q`, and none of them writes there. -/
structure SharesInput (c : Crew ι) (q : Nat) : Prop where
  input     : ∀ i, (c.engines i).input.place = q
  output_ne : ∀ i, (c.engines i).output.place ≠ q

/-- A beginning of the buffer was taken, and it stands behind that. All engines have their pointers
    on their tapes, so that none of them loses a byte. -/
structure Deals (c : Crew ι) (q : Nat) (w : Array UInt8) (bs : List UInt8) : Prop where
  shares   : c.SharesInput q
  onTape   : ∀ i, (c.engines i).machine.tape.OnTape
  buffer   : c.devices[q]? = some (.bytes { contents := w, position := bs.length })
  begins   : bs <+: w.toList

/-- No more is dealt than there is. -/
theorem Deals.length_le (h : c.Deals q w bs) : bs.length ≤ w.size := by
  rw [← Array.length_toList]
  exact h.begins.length_le

/-- The next byte continues what has been dealt. -/
theorem Deals.begins_succ (h : c.Deals q w bs) (hk : bs.length < w.size) :
    bs ++ [w[bs.length]] <+: w.toList := by
  have hk' : bs.length < w.toList.length := hk
  have hnext : bs ++ [w[bs.length]] = w.toList.take (bs.length + 1) := by
    rw [List.take_succ_eq_append_getElem hk', ← List.prefix_iff_eq_take.mp h.begins,
      Array.getElem_toList]
  rw [hnext]
  exact List.take_prefix ..

/-- The next `input` stores the next byte. -/
theorem Deals.turn_input (h : c.Deals q w bs)
    (hf : (c.engines i).machine.fetch = some (.operation .input)) (hk : bs.length < w.size) :
    (c.engines i).machine.next ((c.engines i).channels c.devices) c.devices
      = (.ok true, (c.engines i).machine.moved ((c.engines i).machine.ip + 1)
          ((c.engines i).machine.tape.set (h.onTape i).index w[bs.length]),
        c.devices.setIfInBounds q (.bytes { contents := w, position := bs.length + 1 })) := by
  have hin : c.devices[(c.engines i).input.place]?
      = some (.bytes { contents := w, position := bs.length }) := by
    rw [h.shares.input i]
    exact h.buffer
  have hn : (c.engines i).machine.next ((c.engines i).channels c.devices) c.devices
      = (.ok true, (c.engines i).machine.moved ((c.engines i).machine.ip + 1)
          ((c.engines i).machine.tape.set (h.onTape i).index w[bs.length]),
        c.devices.setIfInBounds (c.engines i).input.place
          (.bytes { contents := w, position := bs.length + 1 })) :=
    Machine.next_input_at hin (h.onTape i) hf hk
  rw [hn, h.shares.input i]

/-- When all bytes are taken, an `input` fails and nothing changes. -/
theorem Deals.turn_input_at_end (h : c.Deals q w bs)
    (hf : (c.engines i).machine.fetch = some (.operation .input)) (hk : bs.length = w.size) :
    (c.engines i).machine.next ((c.engines i).channels c.devices) c.devices
      = (.error (.stream (c.engines i).machine.ip .exhausted), (c.engines i).machine,
          c.devices) := by
  have hin : c.devices[(c.engines i).input.place]?
      = some (.bytes { contents := w, position := bs.length }) := by
    rw [h.shares.input i]
    exact h.buffer
  exact Machine.next_input_at_end hin (h.onTape i) hf (Nat.le_of_eq hk.symm)

section

variable [DecidableEq ι]

/-- A turn leaves every engine with its streams. -/
theorem SharesInput.step (h : c.SharesInput q) (i : ι) : (c.step i).SharesInput q where
  input j := by
    rw [(handles_step c i j).1]
    exact h.input j
  output_ne j := by
    rw [(handles_step c i j).2]
    exact h.output_ne j

/-- A turn leaves all pointers on their tapes. -/
theorem onTape_step (h : ∀ i, (c.engines i).machine.tape.OnTape) (i j : ι) :
    ((c.step i).engines j).machine.tape.OnTape := by
  by_cases hij : j = i
  · subst hij
    rw [engines_step_self]
    exact Machine.onTape_next (h j) _ _
  · rw [engines_step_of_ne hij]
    exact h j

/-- A turn that changes nothing leaves the crew as it was. -/
theorem step_eq_self (hm : (c.turn i).machine = (c.engines i).machine)
    (hd : (c.turn i).streams = c.devices) : c.step i = c := by
  obtain ⟨engines, devices⟩ := c
  have he : Function.update engines i { engines i with machine := (engines i).machine } = engines :=
    Function.update_eq_self i engines
  rw [step, hm, hd]
  exact congrArg (Crew.mk · devices) he

/-- Every turn keeps to the order of the buffer. -/
theorem Deals.step (h : c.Deals q w bs) (i : ι) :
    (c.step i).Deals q w (bs ++ ((c.moved? i).bind Transfer.taken?).toList) := by
  by_cases hf : (c.engines i).machine.fetch = some (.operation .input)
  · rcases Nat.eq_or_lt_of_le h.length_le with hk | hk
    · have hn := h.turn_input_at_end hf hk
      have hresult : (c.turn i).result = .error (.stream (c.engines i).machine.ip .exhausted) :=
        congrArg Prod.fst hn
      rw [moved?_of_ne (by rw [hresult]; exact nofun),
        step_eq_self (congrArg (·.2.1) hn) (congrArg (·.2.2) hn)]
      simpa using h
    · have hn := h.turn_input hf hk
      have hdevices : (c.step i).devices = c.devices.setIfInBounds q
          (.bytes { contents := w, position := bs.length + 1 }) := congrArg (·.2.2) hn
      have hcurrent : (c.turn i).machine.tape.current = .ok w[bs.length] :=
        (congrArg (·.2.1.tape.current) hn).trans ((h.onTape i).current_set _)
      rw [moved?_of_ok (congrArg Prod.fst hn),
        Machine.transfer?_of_read (Machine.demand?_input hf) hcurrent]
      refine ⟨h.shares.step i, onTape_step h.onTape i, ?_, h.begins_succ hk⟩
      rw [hdevices, Devices.getElem?_setIfInBounds_self h.buffer]
      simp [Transfer.taken?]
  · -- nothing is taken, and if something is written it is elsewhere
    have hd : (c.engines i).machine.demand? ≠ some .read := fun hd =>
      hf (Machine.fetch_of_demand?_eq_read hd)
    have htaken : (c.moved? i).bind Transfer.taken? = none := by
      by_cases hr : (c.turn i).result = .ok true
      · rw [moved?_of_ok hr]
        exact Machine.taken?_transfer? hd
      · rw [moved?_of_ne hr]
        rfl
    have hdevices : (c.step i).devices[q]? = c.devices[q]? := by
      rw [devices_step]
      rcases hr : (c.engines i).machine.request? with _ | _ | b
      · rfl
      · exact absurd (Machine.demand?_of_request? hr) hd
      · exact Handle.getElem?_write_of_ne (h.shares.output_ne i) _
    rw [htaken, Option.toList_none, List.append_nil]
    exact ⟨h.shares.step i, onTape_step h.onTape i, hdevices.trans h.buffer, h.begins⟩

/-- After any turns the bytes dealt are those that the engines took, in the order of their turns. -/
theorem Deals.steps (h : c.Deals q w []) (turns : List ι) :
    (c.steps turns).Deals q w (takenIn (c.log turns)) := by
  induction turns using List.reverseRecOn with
  | nil => exact h
  | append_singleton turns i ih =>
      rw [steps_concat, log_concat, takenIn_concat]
      exact ih.step i

/-- Engines that share an input after some turns. -/
structure DealtInTurn (c : Crew ι) (q : Nat) (w : Array UInt8) (turns : List ι) : Prop where
  /-- The bytes that were taken are a beginning of the buffer, none of them left out or taken
      twice. -/
  taken     : takenIn (c.log turns) <+: w.toList
  /-- The buffer is behind them. -/
  behind    : (c.steps turns).devices[q]?
    = some (.bytes { contents := w, position := (takenIn (c.log turns)).length })
  /-- An `input` that comes after `k` others stores byte `k`, if there is one. -/
  stores    : ∀ i k, ((c.steps turns).engines i).machine.fetch = some (.operation .input) →
    (takenIn (c.log turns)).length = k → (hk : k < w.size) →
    ((c.steps turns).turn i).result = .ok true
      ∧ ((c.steps turns).engines i).machine.tape.write w[k].toNat none
        = .ok ((c.steps turns).turn i).machine.tape
      ∧ (c.steps turns).moved? i = some (.taken w[k])
  /-- When all bytes are taken it fails, and nothing changes for any engine or stream. -/
  exhausted : ∀ i, ((c.steps turns).engines i).machine.fetch = some (.operation .input) →
    (takenIn (c.log turns)).length = w.size →
    ((c.steps turns).turn i).result
        = .error (.stream ((c.steps turns).engines i).machine.ip .exhausted)
      ∧ (c.steps turns).step i = c.steps turns

theorem Deals.dealtInTurn (h : c.Deals q w []) (turns : List ι) : DealtInTurn c q w turns := by
  have hdeals := h.steps turns
  refine ⟨hdeals.begins, hdeals.buffer, ?_, ?_⟩
  · rintro i k hf rfl hk
    have hn := hdeals.turn_input hf hk
    have hresult : ((c.steps turns).turn i).result = .ok true := congrArg Prod.fst hn
    have htape : ((c.steps turns).turn i).machine.tape
        = ((c.steps turns).engines i).machine.tape.set (hdeals.onTape i).index
            w[(takenIn (c.log turns)).length] := congrArg (·.2.1.tape) hn
    refine ⟨hresult, ?_, ?_⟩
    · rw [htape, (hdeals.onTape i).write_eq, Tape.ofInt_toNat]
    · have hcurrent := (hdeals.onTape i).current_set w[(takenIn (c.log turns)).length]
      rw [← htape] at hcurrent
      rw [moved?_of_ok hresult, Machine.transfer?_of_read (Machine.demand?_input hf) hcurrent]
  · intro i hf hk
    have hn := hdeals.turn_input_at_end hf hk
    exact ⟨congrArg Prod.fst hn, step_eq_self (congrArg (·.2.1) hn) (congrArg (·.2.2) hn)⟩

/-- **Engines that share a stream do not disturb one another**, in whatever order they take their
    turns. Where they share an input their pointers are on their tapes, as every command leaves them
    (`Machine.Sound.obeyAll`): an engine off its tape would lose the byte that it reads. -/
theorem engines_do_not_disturb {ι : Type} [DecidableEq ι] (c : Crew ι) (turns : List ι) :
    (∀ p, c.SharesOutput p → c.devices[p]? = some (.bytes {}) → ∀ i, Undisturbed c p turns i)
    ∧ ∀ q w, c.SharesInput q → (∀ i, (c.engines i).machine.tape.OnTape) →
      c.devices[q]? = some (.bytes { contents := w }) → DealtInTurn c q w turns := by
  constructor
  · intro p hshares hempty i
    exact hshares.undisturbed hempty turns i
  · intro q w hshares hon hfull
    exact Deals.dealtInTurn ⟨hshares, hon, hfull, List.nil_prefix⟩ turns

/-- Two engines that write to one buffer, one of them through a shared handle, and two that read
    a buffer of one byte, which the second of them finds empty. -/
theorem two_engines_at_one_buffer :
    let machine (ops : List Operation) : Machine :=
      (Machine.fresh 1 Nat.one_pos false).load (.ofOperations ops)
    let writers : Crew Bool :=
      { engines := fun i =>
          if i then ⟨machine [.input, .output], .direct 0, .shared (.words "sink") (.direct 2)⟩
          else ⟨machine [.increment, .output], .direct 1, .direct 2⟩
        devices := #[.bytes { contents := #[65] }, .bytes {}, .bytes {}] }
    let readers : Crew Bool :=
      { engines := fun i => ⟨machine [.input], .direct 0, .direct (if i then 1 else 2)⟩
        devices := #[.bytes { contents := #[65] }, .bytes {}, .bytes {}] }
    let turns := [true, false, false, true, true]
    (writers.SharesOutput 2 ∧ writers.devices[2]? = some (.bytes {})
        ∧ givenIn (writers.log turns) = [1, 65] ∧ ∀ i, Undisturbed writers 2 turns i)
      ∧ readers.SharesInput 0 ∧ (∀ i, (readers.engines i).machine.tape.OnTape)
        ∧ readers.devices[0]? = some (.bytes { contents := #[65] })
        ∧ readers.log turns = [(true, .taken 65)] ∧ DealtInTurn readers 0 #[65] turns := by
  intro machine writers readers turns
  have hwriters : writers.SharesOutput 2 := ⟨by decide, by decide, by decide⟩
  have hreaders : readers.SharesInput 0 := ⟨by decide, by decide⟩
  have hon (i : Bool) : (readers.engines i).machine.tape.OnTape := Tape.onTape_blank 1 Nat.one_pos
  have hgiven : givenIn (writers.log turns) = [1, 65] := by decide +kernel
  have htaken : readers.log turns = [(true, .taken 65)] := by decide +kernel
  exact ⟨⟨hwriters, rfl, hgiven, (engines_do_not_disturb writers turns).1 2 hwriters rfl⟩,
    hreaders, hon, rfl, htaken, (engines_do_not_disturb readers turns).2 0 _ hreaders hon rfl⟩

end

end TapeMachine.Crew
