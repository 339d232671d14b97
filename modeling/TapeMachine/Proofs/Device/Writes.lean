import TapeMachine.Proofs.Handle.Layers

/-!
# What is written to a stream

A machine writes one byte at a time: the current cell, each time that it comes to an `output`
(`Machine.output?`). So what a run makes of its output stream can be told from the machines that it
passes through, whatever the stream does with the bytes.

* `Shows.serveAll` — anything that can be told of the output stream changes with the writes alone,
  if reading from the input does not show in it.
* A scripted stream takes down its calls, and `Device.writes?` are the writes among them. They show
  no reads at all, so they are told also of a stream that is the input and the output at once.
-/

namespace TapeMachine

-- ── Writes taken down ────────────────────────────────────────────────────────────

/-- The bytes of a call that is a write. -/
def Call.written? : Call → Option (List UInt8)
  | write bs => some bs
  | _        => none

namespace Script

end Script

namespace Device

end Device

-- ── The bytes of a run ───────────────────────────────────────────────────────────

namespace Machine

variable {σ : Type} {ch : Channels σ} {vm : Machine} {s : σ} {n k limit : Nat}
  {events : Array Event}

/-- The byte that a machine is about to give out: the current cell, if it is at an `output`. -/
def output? (vm : Machine) : Option UInt8 :=
  match vm.fetch, vm.tape.current with
  | some (.operation .output), .ok b => some b
  | _, _                             => none

/-- The only call after the last step is the flush at the end of the program. -/
theorem streams_conclude (ch : Channels σ) (r : Run σ) :
    (conclude ch r).streams = r.streams
      ∨ r.outcome = .finished ∧ (conclude ch r).streams = (flush ch r.machine.ip r.streams).2 := by
  obtain ⟨o, vm, s, k, events⟩ := r
  cases o with
  | finished =>
      refine Or.inr ⟨rfl, ?_⟩
      rw [conclude]
      rcases flush ch vm.ip s with ⟨f | _, s'⟩
      · rfl
      · rfl
  | failed f => exact Or.inl rfl
  | unfinished => exact Or.inl rfl

end Machine

-- ── The output stream ────────────────────────────────────────────────────────────

section

variable {β : Type} {view : Device → β} {give : β → UInt8 → β} {input output : Handle}
  {ds : Devices}

/-- What is told of the output stream, in a row of so many, changes with every byte that is written
    to it. If it is read from as well, this does not show. -/
structure Shows (view : Device → β) (give : β → UInt8 → β) (input output : Handle) (n : Nat) :
    Prop where
  read   : input.place = output.place → ∀ d, view (d.read (.whole 1)).2 = view d
  write  : ∀ d b, view (d.write [b]).2 = give (view d) b
  vacant : n ≤ output.place → ∀ b, give (view .vacant) b = view .vacant

theorem Shows.serve (h : Shows view give input output ds.size) (ds₀ : Devices) (d : Demand) :
    ((Channels.ofHandles input output ds₀).serve ds d).size = ds.size
      ∧ view (((Channels.ofHandles input output ds₀).serve ds d).device output.place)
        = d.written?.toList.foldl give (view (ds.device output.place)) := by
  cases d with
  | read =>
      show (input.read (.whole 1) ds).2.size = _
        ∧ view ((input.read (.whole 1) ds).2.device output.place) = view (ds.device output.place)
      rw [Handle.read_eq]
      refine ⟨Devices.size_use .., ?_⟩
      by_cases hplace : input.place = output.place
      · exact Devices.view_use_same (h.read hplace) ..
      · rw [Devices.device_use_of_ne hplace]
  | write b =>
      show (output.write [b] ds).2.size = _
        ∧ view ((output.write [b] ds).2.device output.place)
          = give (view (ds.device output.place)) b
      rw [Handle.write_eq]
      exact ⟨Devices.size_use ..,
        Devices.view_use view (give · b) (fun d => h.write d b) fun hn => h.vacant hn b⟩

/-- **What is told of the output stream changes with the bytes that are written to it, and with
    nothing else.** -/
theorem Shows.serveAll (h : Shows view give input output ds.size) (ds₀ : Devices)
    (demands : List Demand) :
    view (((Channels.ofHandles input output ds₀).serveAll ds demands).device output.place)
      = (Demand.written demands).foldl give (view (ds.device output.place)) := by
  induction demands generalizing ds with
  | nil => rfl
  | cons d demands ih =>
      obtain ⟨hsize, hview⟩ := h.serve ds₀ d
      rw [← hsize] at h
      rw [Demand.written, filterMap_cons_toList, List.foldl_append, ← hview]
      exact ih h

end

-- ── Runs of engines ──────────────────────────────────────────────────────────────

namespace Engine

variable (e : Engine) (limit : Nat) (ds : Devices)

end Engine

end TapeMachine
