import Mathlib.Data.List.Induction
import TapeMachine.Crew
import TapeMachine.Proofs.Device.Buffer
import TapeMachine.Proofs.Machine.Request

/-!
# Turns

What a turn changes and what it leaves alone. It changes the machine of its own engine only, and
among the streams only those that this engine holds (`getElem?_devices_step`). What comes of it
depends on the machine and on the answer to its one call (`turn_congr`).

The log of many turns grows at its end, by what the last turn moved (`log_concat`).
-/

namespace TapeMachine

-- ── What a machine moves ─────────────────────────────────────────────────────────

namespace Machine

variable {vm vm' : Machine} {b : UInt8}

/-- The byte that is demanded to be written is the one that is given. -/
theorem transfer?_of_write (h : vm.demand? = some (.write b)) :
    vm.transfer? vm' = some (.given b) := by
  rw [transfer?, h]

/-- The byte that is taken is the one that the current cell holds after the step. -/
theorem transfer?_of_read (h : vm.demand? = some .read) (hc : vm'.tape.current = .ok b) :
    vm.transfer? vm' = some (.taken b) := by
  rw [transfer?, h, hc]

/-- Nothing is given unless it is demanded to be written. -/
theorem given?_transfer? (h : ∀ b, vm.demand? ≠ some (.write b)) :
    (vm.transfer? vm').bind Transfer.given? = none := by
  rw [transfer?]
  rcases hd : vm.demand? with _ | _ | b
  · rfl
  · cases vm'.tape.current with
    | ok b => rfl
    | error e => rfl
  · exact absurd hd (h b)

/-- Nothing is taken unless a read is demanded. -/
theorem taken?_transfer? (h : vm.demand? ≠ some .read) :
    (vm.transfer? vm').bind Transfer.taken? = none := by
  rw [transfer?]
  rcases hd : vm.demand? with _ | _ | b
  · rfl
  · exact absurd hd h
  · rfl

end Machine

namespace Crew

variable {ι : Type} {c c' : Crew ι} {i j : ι}

-- ── What comes of a turn ─────────────────────────────────────────────────────────

/-- Turns of one engine in two crews come to the same, if its call is answered alike. -/
theorem turn_congr (he : c.engines i = c'.engines i)
    (h : ∀ d, (c.engines i).machine.request? = some d →
      Channels.SameAnswer ((c.engines i).channels c.devices) c.devices
        ((c.engines i).channels c'.devices) c'.devices d) :
    (c.turn i).result = (c'.turn i).result ∧ (c.turn i).machine = (c'.turn i).machine := by
  have hcongr := Machine.next_congr_of_request h
  rw [turn, turn, ← he]
  exact hcongr

/-- Turns that come to the same move the same. -/
theorem moved?_congr (he : c.engines i = c'.engines i) (hr : (c.turn i).result = (c'.turn i).result)
    (hm : (c.turn i).machine = (c'.turn i).machine) : c.moved? i = c'.moved? i := by
  rw [moved?, moved?, hr, hm, he]

/-- A turn that executes an operation moves what this operation does. -/
theorem moved?_of_ok (h : (c.turn i).result = .ok true) :
    c.moved? i = (c.engines i).machine.transfer? (c.turn i).machine := by
  rw [moved?, h]

/-- A turn that executes nothing moves nothing. -/
theorem moved?_of_ne (h : (c.turn i).result ≠ .ok true) : c.moved? i = none := by
  rw [moved?]
  split
  · next hr => exact absurd hr h
  · rfl

/-- No turn gives a byte that it has not asked to write. -/
theorem given?_moved? (h : ∀ b, (c.engines i).machine.request? ≠ some (.write b)) :
    (c.moved? i).bind Transfer.given? = none := by
  by_cases hr : (c.turn i).result = .ok true
  · rw [moved?_of_ok hr]
    rw [Machine.request?_of_next hr] at h
    exact Machine.given?_transfer? h
  · rw [moved?_of_ne hr]
    rfl

/-- The bytes that one turn adds to those given, if any. -/
theorem givenIn_concat (log : List (ι × Transfer)) (i : ι) (t? : Option Transfer) :
    givenIn (log ++ t?.toList.map (i, ·)) = givenIn log ++ (t?.bind Transfer.given?).toList := by
  rw [givenIn, givenIn, List.filterMap_append]
  rcases t? with _ | _ | _
  · rfl
  · rfl
  · rfl

/-- What an engine takes stands behind all that was taken before. -/
theorem takenIn_concat (log : List (ι × Transfer)) (i : ι) (t? : Option Transfer) :
    takenIn (log ++ t?.toList.map (i, ·)) = takenIn log ++ (t?.bind Transfer.taken?).toList := by
  rw [takenIn, takenIn, List.filterMap_append]
  rcases t? with _ | _ | _
  · rfl
  · rfl
  · rfl

-- ── One turn ─────────────────────────────────────────────────────────────────────

variable [DecidableEq ι]

/-- A turn takes the engine whose turn it is one step further. -/
theorem engines_step_self (c : Crew ι) (i : ι) :
    (c.step i).engines i = { c.engines i with machine := (c.turn i).machine } :=
  Function.update_self ..

/-- A turn leaves every other engine as it was. -/
theorem engines_step_of_ne (h : j ≠ i) : (c.step i).engines j = c.engines j :=
  Function.update_of_ne h ..

/-- A turn leaves the engines their streams. -/
theorem handles_step (c : Crew ι) (i j : ι) :
    ((c.step i).engines j).input = (c.engines j).input
      ∧ ((c.step i).engines j).output = (c.engines j).output := by
  by_cases h : j = i
  · subst h
    rw [engines_step_self]
    exact ⟨rfl, rfl⟩
  · rw [engines_step_of_ne h]
    exact ⟨rfl, rfl⟩

/-- A turn leaves the streams as its one call does. -/
theorem devices_step (c : Crew ι) (i : ι) :
    (c.step i).devices = ((c.engines i).channels c.devices).serveAll c.devices
      (c.engines i).machine.request?.toList :=
  Machine.streams_next_of_request ..

/-- A turn leaves the streams alone that its engine does not hold. -/
theorem getElem?_devices_step {k : Nat} (hi : (c.engines i).input.place ≠ k)
    (ho : (c.engines i).output.place ≠ k) : (c.step i).devices[k]? = c.devices[k]? := by
  rw [devices_step]
  rcases (c.engines i).machine.request? with _ | _ | b
  · rfl
  · exact Handle.getElem?_read_of_ne hi _
  · exact Handle.getElem?_write_of_ne ho _

-- ── Many turns ───────────────────────────────────────────────────────────────────

/-- The last of some turns is made on what the others left. -/
theorem steps_concat (c : Crew ι) (turns : List ι) (i : ι) :
    c.steps (turns ++ [i]) = (c.steps turns).step i :=
  List.foldl_append

/-- An engine alone makes one turn after the other. -/
theorem alone_succ (c : Crew ι) (i : ι) (k : Nat) : c.alone i (k + 1) = (c.alone i k).step i := by
  rw [alone, List.replicate_succ', steps_concat]
  rfl

/-- The log grows at its end, by what the last turn moved. -/
theorem log_concat (c : Crew ι) (turns : List ι) (i : ι) :
    c.log (turns ++ [i]) = c.log turns ++ ((c.steps turns).moved? i).toList.map (i, ·) := by
  induction turns generalizing c with
  | nil =>
      rw [List.nil_append, log, log, log, List.append_nil]
      rfl
  | cons j turns ih =>
      rw [List.cons_append, log, log, ih, List.append_assoc]
      rfl

/-- What one turn moves belongs to the log of its own engine. -/
theorem ownIn_concat (log : List (ι × Transfer)) (i j : ι) (t? : Option Transfer) :
    ownIn i (log ++ t?.toList.map (j, ·))
      = ownIn i log ++ if j = i then t?.toList.map (j, ·) else [] := by
  rw [ownIn, ownIn, List.filter_append]
  cases t? with
  | none => simp
  | some t =>
      by_cases h : j = i
      · simp [h]
      · simp [h]

end Crew

end TapeMachine
