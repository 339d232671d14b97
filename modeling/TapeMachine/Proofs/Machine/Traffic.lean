import TapeMachine.Proofs.Machine.Reachable
import TapeMachine.Proofs.Machine.Request

/-!
# Stream traffic

Which calls a machine makes on its streams, and in which order. `Machine.demand?` tells the call of
the next step before it is made, and a step makes **this call and no other**:

* `streams_next` — the call leaves the streams as the step leaves them;
* `next_congr` — of the streams the step sees the answer to the call and nothing else.

So the calls of a run are the demands of the machines that it passes through (`Machine.trail`), one
behind the other, and a flush at the end of the program and nowhere else (`run_recorded`). What this
means for whole runs is put together in `Traffic`.
-/

namespace TapeMachine

/-- The call that a demand is met with. -/
def Demand.call : Demand → Call
  | read    => .read (.whole 1)
  | write b => .write [b]

/-- The byte that a demand writes. -/
def Demand.written? : Demand → Option UInt8
  | read    => none
  | write b => some b

/-- The bytes that a row of demands writes. -/
def Demand.written (past : List Demand) : List UInt8 :=
  past.filterMap written?

/-- What the first entry of a row gives stands in front of what the others give. -/
theorem filterMap_cons_toList {α β : Type} (f : α → Option β) (a : α) (as : List α) :
    (a :: as).filterMap f = (f a).toList ++ as.filterMap f := by
  cases ha : f a with
  | none => exact List.filterMap_cons_none ha
  | some b => exact List.filterMap_cons_some ha

namespace Channels

variable {σ : Type}

theorem sameAnswer_recorded (ch : Channels σ) (s : σ) (calls : Array Call) (d : Demand) :
    SameAnswer ch s ch.recorded (s, calls) d := by
  cases d with
  | read => rfl
  | write b => rfl

/-- The calls of a row of demands are taken down in their order. -/
theorem serveAll_recorded (ch : Channels σ) (s : σ) (calls : Array Call) (ds : List Demand) :
    ch.recorded.serveAll (s, calls) ds
      = (ch.serveAll s ds, calls ++ (ds.map Demand.call).toArray) := by
  induction ds generalizing s calls with
  | nil => simp [serveAll]
  | cons d ds ih =>
      have hd : ch.recorded.serve (s, calls) d = (ch.serve s d, calls.push d.call) := by
        cases d with
        | read => rfl
        | write b => rfl
      show ch.recorded.serveAll (ch.recorded.serve (s, calls) d) ds = _
      rw [hd, ih]
      simp [serveAll]

end Channels

/-- A run with the calls that were taken down. -/
def Run.withCalls {σ : Type} (r : Run σ) (calls : Array Call) : Run (σ × Array Call) :=
  ⟨r.outcome, r.machine, (r.streams, calls), r.steps, r.events⟩

namespace Machine

variable {σ τ : Type} {ch : Channels σ} {ch' : Channels τ} {vm vm' : Machine} {s : σ} {s' : τ}
  {k n limit : Nat} {events : Array Event}

-- ── The call of a step ───────────────────────────────────────────────────────────

theorem demand?_output (hon : vm.tape.OnTape) (hf : vm.fetch = some (.operation .output)) :
    vm.demand? = some (.write (vm.tape.get hon.index)) := by
  rw [demand?, hf, hon.current_eq]

/-- **A step makes the call that it demands, and no other.** -/
theorem streams_next (hon : vm.tape.OnTape) (ch : Channels σ) (s : σ) :
    (vm.next ch s).2.2 = ch.serveAll s vm.demand?.toList := by
  rw [streams_next_of_request, request?_of_onTape hon]

/-- **A step sees nothing of the streams but the answer to its call.** -/
theorem next_congr (hon : vm.tape.OnTape)
    (h : ∀ d, vm.demand? = some d → ch.SameAnswer s ch' s' d) :
    (vm.next ch s).1 = (vm.next ch' s').1 ∧ (vm.next ch s).2.1 = (vm.next ch' s').2.1 := by
  rw [← request?_of_onTape hon] at h
  exact next_congr_of_request h

/-- What a step reports does not depend on the streams. -/
theorem event?_step (ch : Channels σ) (ch' : Channels τ) (s : σ) (s' : τ) :
    (vm.step ch s).event? = (vm.step ch' s').event? := by
  rw [event?_step_eq, event?_step_eq]

/-- Calls that are taken down change nothing about a step. -/
theorem next_recorded (hon : vm.tape.OnTape) (ch : Channels σ) (s : σ) (calls : Array Call) :
    vm.next ch.recorded (s, calls) = ((vm.next ch s).1, (vm.next ch s).2.1, (vm.next ch s).2.2,
      calls ++ (vm.demand?.toList.map Demand.call).toArray) := by
  have hanswer : ∀ d, vm.demand? = some d → ch.SameAnswer s ch.recorded (s, calls) d :=
    fun d _ => ch.sameAnswer_recorded s calls d
  obtain ⟨hresult, hmachine⟩ := next_congr hon hanswer
  refine Prod.ext hresult.symm (Prod.ext hmachine.symm ?_)
  show (vm.next ch.recorded (s, calls)).2.2 = _
  rw [streams_next hon, streams_next hon, Channels.serveAll_recorded]

-- ── The calls of a run ───────────────────────────────────────────────────────────

/-- The machine before each of at most `n` steps, the last one being that which ends the run. -/
def trail (ch : Channels σ) : Nat → Machine → σ → List Machine
  | 0, _, _      => []
  | n + 1, vm, s =>
    vm :: match vm.next ch s with
      | (.ok true, vm, s) => trail ch n vm s
      | _                 => []

/-- What at most `n` steps demand of the streams. -/
def demands (ch : Channels σ) (n : Nat) (vm : Machine) (s : σ) : List Demand :=
  (vm.trail ch n s).filterMap demand?

theorem trail_succ_of_ok {vm' : Machine} {s' : σ} (h : vm.next ch s = (.ok true, vm', s'))
    (n : Nat) : vm.trail ch (n + 1) s = vm :: vm'.trail ch n s' := by
  rw [trail, h]

theorem trail_succ_of_ne (h : (vm.next ch s).1 ≠ .ok true) (n : Nat) :
    vm.trail ch (n + 1) s = [vm] := by
  rw [trail]
  split
  · next vm' s' hn => exact absurd (congrArg Prod.fst hn) h
  · rfl

theorem demands_succ_of_ok {vm' : Machine} {s' : σ} (h : vm.next ch s = (.ok true, vm', s'))
    (n : Nat) : vm.demands ch (n + 1) s = vm.demand?.toList ++ vm'.demands ch n s' := by
  rw [demands, trail_succ_of_ok h, filterMap_cons_toList]
  rfl

theorem demands_succ_of_ne (h : (vm.next ch s).1 ≠ .ok true) (n : Nat) :
    vm.demands ch (n + 1) s = vm.demand?.toList := by
  rw [demands, trail_succ_of_ne h, filterMap_cons_toList]
  exact List.append_nil _

/-- The trail holds the machines after so many executed operations. -/
theorem getElem?_trail {i : Nat} {vm' : Machine} :
    (vm.trail ch n s)[i]? = some vm' ↔ i < n ∧ ∃ s', vm.after ch i s = some (vm', s') := by
  induction n generalizing i vm s with
  | zero =>
      constructor
      · intro h
        exact nomatch h
      · rintro ⟨h, -⟩
        exact absurd h (Nat.not_lt_zero i)
  | succ n ih =>
      cases i with
      | zero =>
          have hhead : (vm.trail ch (n + 1) s)[0]? = some vm := rfl
          rw [hhead, after_zero]
          constructor
          · intro h
            exact ⟨Nat.succ_pos n, s, congrArg (·.map (·, s)) h⟩
          · rintro ⟨-, s', h⟩
            exact congrArg (·.map Prod.fst) h
      | succ i =>
          rcases next_cases ch vm s with ⟨vm₁, s₁, hn⟩ | hn
          · rw [trail_succ_of_ok hn, List.getElem?_cons_succ, ih, after_succ_of_ok hn,
              Nat.succ_lt_succ_iff]
          · rw [trail_succ_of_ne hn, after_succ_of_ne hn]
            simp

/-- The trail of a run that stops after `m` operations ends with the machine that stops it. -/
theorem trail_of_stop {m : Nat} {vm' : Machine} {s' : σ} (ha : vm.after ch m s = some (vm', s'))
    (hstop : (vm'.next ch s').1 ≠ .ok true) (hm : m < n) :
    ∃ past, past.length = m ∧ vm.trail ch n s = past ++ [vm'] := by
  obtain ⟨n, rfl⟩ := Nat.exists_eq_add_of_lt hm
  induction m generalizing vm s with
  | zero =>
      obtain ⟨rfl, rfl⟩ := Prod.mk.inj (Option.some.inj ha)
      exact ⟨[], rfl, trail_succ_of_ne hstop _⟩
  | succ m ih =>
      rcases next_cases ch vm s with ⟨vm₁, s₁, hn⟩ | hn
      · rw [after_succ_of_ok hn] at ha
        obtain ⟨past, hlen, hpast⟩ := ih ha (by omega)
        refine ⟨vm :: past, congrArg Nat.succ hlen, ?_⟩
        rw [show m + 1 + n + 1 = m + n + 1 + 1 by omega, trail_succ_of_ok hn, hpast]
        rfl
      · rw [after_succ_of_ne hn] at ha
        exact nomatch ha

/-- Calls that are taken down change nothing about a limited run, and they are what it demands. -/
theorem advanceFrom_recorded (hon : vm.tape.OnTape) (ch : Channels σ) (n k : Nat)
    (events : Array Event) (s : σ) (calls : Array Call) :
    advanceFrom ch.recorded n k events vm (s, calls)
      = (advanceFrom ch n k events vm s).withCalls
          (calls ++ ((vm.demands ch n s).map Demand.call).toArray) := by
  induction n generalizing k events vm s calls with
  | zero =>
      have hcalls : calls ++ ((vm.demands ch 0 s).map Demand.call).toArray = calls :=
        Array.append_empty
      rw [hcalls]
      rfl
  | succ n ih =>
      have hon' := onTape_next hon ch s
      rw [advanceFrom_succ, advanceFrom_succ, next_recorded hon,
        event?_step ch.recorded ch (s, calls) s]
      rcases hn : vm.next ch s with ⟨f | _ | _, vm', s'⟩
      · rw [demands_succ_of_ne (by rw [hn]; exact nofun)]
        rfl
      · rw [demands_succ_of_ne (by rw [hn]; exact nofun)]
        rfl
      · rw [hn] at hon'
        rw [demands_succ_of_ok hn, List.map_append, ← List.append_toArray, ← Array.append_assoc]
        exact ih hon' ..

/-- The call that follows the last step: a flush at the end of the program, if the output knows
    how to. -/
def lastCalls (ch : Channels σ) (r : Run σ) : List Call :=
  match r.outcome, ch.flush? with
  | .finished, some _ => [.flush]
  | _, _              => []

theorem conclude_recorded (ch : Channels σ) (r : Run σ) (calls : Array Call) :
    conclude ch.recorded (r.withCalls calls)
      = (conclude ch r).withCalls (calls ++ (lastCalls ch r).toArray) := by
  obtain ⟨o, vm, s, k, events⟩ := r
  cases o with
  | finished =>
      simp only [conclude, Run.withCalls, lastCalls, flush, Channels.recorded]
      cases ch.flush? with
      | none => simp
      | some flush =>
          rcases hf : flush s with ⟨e | _, s'⟩
          · simp [hf]
          · simp [hf]
  | failed f => simp [conclude, Run.withCalls, lastCalls]
  | unfinished => simp [conclude, Run.withCalls, lastCalls]

/-- **The calls of a run are those that its steps demand**, and a flush at the end of the program.
    That they are taken down changes nothing. -/
theorem run_recorded (ch : Channels σ) (limit : Nat) (vm : Machine) (s : σ) :
    vm.run ch.recorded limit (s, #[])
      = (vm.run ch limit s).withCalls ((vm.reset.demands ch limit s).map Demand.call
          ++ lastCalls ch (vm.course ch limit s)).toArray := by
  have hon : vm.reset.tape.OnTape := Tape.onTape_reset
  rw [run_eq_conclude, run_eq_conclude, course, advanceFrom_recorded hon, conclude_recorded]
  simp [course]

/-- What a step demands: one element of the input at an `input`, one byte for the output at an
    `output`, which is the current cell, and nothing anywhere else. -/
def Demanded (vm : Machine) : Prop :=
  (vm.fetch = some (.operation .input) ∧ vm.demand? = some .read)
  ∨ (vm.fetch = some (.operation .output)
    ∧ ∃ b, vm.tape.current = .ok b ∧ vm.demand? = some (.write b))
  ∨ (vm.fetch ≠ some (.operation .input) ∧ vm.fetch ≠ some (.operation .output)
    ∧ vm.demand? = none)

theorem demanded_of_onTape (hon : vm.tape.OnTape) : vm.Demanded := by
  by_cases hi : vm.fetch = some (.operation .input)
  · exact Or.inl ⟨hi, demand?_input hi⟩
  · by_cases ho : vm.fetch = some (.operation .output)
    · exact Or.inr (Or.inl ⟨ho, _, hon.current_eq, demand?_output hon ho⟩)
    · exact Or.inr (Or.inr ⟨hi, ho, demand?_other hi ho⟩)

/-- Which calls a run makes, and when. -/
structure Traffic (ch : Channels σ) (vm : Machine) (limit : Nat) (s : σ) : Prop where
  /-- The calls are those that the steps demand, in their order, and a flush at the end. That they
      are taken down changes nothing about the run. -/
  recorded  : vm.run ch.recorded limit (s, #[])
    = (vm.run ch limit s).withCalls ((vm.reset.demands ch limit s).map Demand.call
        ++ lastCalls ch (vm.course ch limit s)).toArray
  /-- The steps are those of the machines after no operation, one operation, and so on. -/
  trail_iff : ∀ i vm', (vm.reset.trail ch limit s)[i]? = some vm'
    ↔ i < limit ∧ ∃ s', vm.reset.after ch i s = some (vm', s')
  demanded  : ∀ vm' ∈ vm.reset.trail ch limit s, vm'.Demanded
  /-- The last step of a run that has stopped executes nothing, all those before it do. -/
  stopped   : (vm.course ch limit s).outcome ≠ .unfinished →
    ∃ past, past.length = (vm.course ch limit s).steps
      ∧ vm.reset.trail ch limit s = past ++ [(vm.course ch limit s).machine]
  /-- A run whose steps all succeeded has come to the end of the program. -/
  finished  : (vm.course ch limit s).outcome = .finished →
    (vm.course ch limit s).machine.ip = vm.program.size
  /-- A run that failed has not. -/
  failed    : ∀ f, (vm.course ch limit s).outcome = .failed f →
    (vm.course ch limit s).machine.ip < vm.program.size

/-- **The traffic of a run is its executed operations.** -/
theorem traffic_of_operations (hops : ∀ x ∈ vm.program, ∃ op, x = .operation op)
    (ch : Channels σ) (limit : Nat) (s : σ) : Traffic ch vm limit s := by
  have hsound : (vm.course ch limit s).machine.Sound vm.tape.size :=
    advanceFrom_invariant (fun _ s h => h.next ch s) (sound_reset hops)
  have hprogram : (vm.course ch limit s).machine.program = vm.program := program_course limit
  have hend : (vm.course ch limit s).machine.fetch = none
      ↔ (vm.course ch limit s).machine.ip = vm.program.size := by
    rw [hsound.fetch_eq_none_iff, hprogram]
  refine ⟨run_recorded ch limit vm s, fun i vm' => getElem?_trail, ?_, ?_, ?_, ?_⟩
  · intro vm' hmem
    obtain ⟨i, hi⟩ := List.getElem?_of_mem hmem
    obtain ⟨-, s', ha⟩ := getElem?_trail.mp hi
    exact demanded_of_onTape (onTape_after Tape.onTape_reset ha)
  · intro h
    obtain ⟨r, s', hlt, hr, -, ha, hn⟩ := stop_of_course h
    refine trail_of_stop ha ?_ hlt
    rw [hn]
    exact hr
  · intro h
    obtain ⟨r, s', -, -, ho, -, hn⟩ := stop_of_course (by rw [h]; exact nofun)
    obtain rfl : r = .ok false := Outcome.ofResult_eq_finished (ho.symm.trans h)
    exact hend.mp ((next_eq_false_iff hsound.onTape ch s').mp (congrArg Prod.fst hn))
  · intro f h
    obtain ⟨r, s', -, -, ho, -, hn⟩ := stop_of_course (by rw [h]; exact nofun)
    refine Nat.lt_of_le_of_ne (hprogram ▸ hsound.ip_le) ?_
    intro hip
    have hfalse := (next_eq_false_iff hsound.onTape ch s').mpr (hend.mpr hip)
    rw [hn] at hfalse
    obtain rfl : r = .ok false := hfalse
    exact nomatch ho.symm.trans h

end Machine

end TapeMachine
