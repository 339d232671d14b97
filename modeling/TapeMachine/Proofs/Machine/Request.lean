import TapeMachine.Machine.Demand
import TapeMachine.Proofs.Machine.Step

/-!
# Steps seen from the streams

What the streams notice of a step, for every machine, also one whose pointer is off the tape. There
a step may fail at its trace, before the call that it would make, so what it asks for is
`Machine.request?`: the demand of the operation, unless the trace fails. A step **makes this call
and sees nothing but its answer**, as `streams_next_of_request` and `next_congr_of_request` say, and
an operation that is executed has asked for all that it demands.
-/

namespace TapeMachine

namespace Channels

variable {σ : Type}

/-- The streams after the call of a demand, whatever the answer is. -/
def serve (ch : Channels σ) (s : σ) : Demand → σ
  | .read    => (ch.read s).2
  | .write b => (ch.write b s).2

/-- The streams after the calls of a row of demands. -/
def serveAll (ch : Channels σ) (s : σ) (ds : List Demand) : σ :=
  ds.foldl ch.serve s

/-- Two channels answer a demand alike. -/
def SameAnswer {τ : Type} (ch : Channels σ) (s : σ) (ch' : Channels τ) (s' : τ) : Demand → Prop
  | .read    => (ch.read s).1 = (ch'.read s').1
  | .write b => (ch.write b s).1 = (ch'.write b s').1

end Channels

namespace Machine

variable {σ τ : Type} {ch : Channels σ} {ch' : Channels τ} {vm : Machine} {s : σ} {s' : τ}
  {op : Operation} {d : Demand}

/-- The call that the next step makes, if it gets as far as that. -/
def request? (vm : Machine) : Option Demand :=
  match vm.fetch with
  | none   => none
  | some x =>
    match vm.trace? x with
    | .error _ => none
    | .ok _    => vm.demand?

theorem demand?_of_request? (h : vm.request? = some d) : vm.demand? = some d := by
  rw [request?] at h
  split at h
  · exact nomatch h
  · split at h
    · exact nomatch h
    · exact h

theorem fetch_of_demand?_eq_read (h : vm.demand? = some .read) :
    vm.fetch = some (.operation .input) := by
  rw [demand?] at h
  split at h
  · next hf => exact hf
  · cases h
  · cases h

theorem fetch_of_demand?_eq_write {b : UInt8} (h : vm.demand? = some (.write b)) :
    vm.fetch = some (.operation .output) ∧ vm.tape.current = .ok b := by
  rw [demand?] at h
  split at h
  · cases h
  · next hf hc =>
      cases h
      exact ⟨hf, hc⟩
  · cases h

theorem demand?_input (hf : vm.fetch = some (.operation .input)) : vm.demand? = some .read := by
  rw [demand?, hf]

theorem demand?_other (hi : vm.fetch ≠ some (.operation .input))
    (ho : vm.fetch ≠ some (.operation .output)) : vm.demand? = none := by
  rw [demand?]
  split
  · next _ _ hf => exact absurd hf hi
  · next _ _ hf _ => exact absurd hf ho
  · rfl

/-- On the tape a step gets as far as its call, because every operation can be traced. -/
theorem request?_of_onTape (hon : vm.tape.OnTape) : vm.request? = vm.demand? := by
  have hforeign (h : ∀ op, vm.fetch ≠ some (.operation op)) : vm.demand? = none :=
    demand?_other (h .input) (h .output)
  rw [request?]
  cases hf : vm.fetch with
  | none => exact (hforeign fun op => by rw [hf]; exact nofun).symm
  | some x =>
      dsimp only
      cases ht : vm.trace? x with
      | ok e? => rfl
      | error f =>
          refine (hforeign fun op hop => ?_).symm
          obtain rfl := Option.some.inj (hf.symm.trans hop)
          obtain ⟨e?, he⟩ := exists_trace? hon op
          exact nomatch ht.symm.trans he

-- ── Operations ───────────────────────────────────────────────────────────────────

/-- An operation that is neither `input` nor `output` has nothing to do with the streams. -/
theorem execute_other {op : Operation} (hi : op ≠ .input) (ho : op ≠ .output) (ch : Channels σ)
    (ch' : Channels τ) (s : σ) (s' : τ) :
    vm.execute ch op s = ((vm.execute ch' op s').1, (vm.execute ch' op s').2.1, s) := by
  have halter (f : UInt8 → UInt8) : vm.alter f s = ((vm.alter f s').1, (vm.alter f s').2.1, s) := by
    rw [alter, alter]
    cases vm.tape.here with
    | ok i => rfl
    | error e => rfl
  have hjump (i? : Option Nat) (f : Fault) :
      vm.jumpBehind i? f s = ((vm.jumpBehind i? f s').1, (vm.jumpBehind i? f s').2.1, s) := by
    cases i? with
    | some i => rfl
    | none => rfl
  cases op with
  | increment => exact halter (· + 1)
  | decrement => exact halter (· - 1)
  | next => rfl
  | previous => rfl
  | input => exact absurd rfl hi
  | output => exact absurd rfl ho
  | loopForward =>
      show vm.openLoop s = ((vm.openLoop s').1, (vm.openLoop s').2.1, s)
      rw [openLoop, openLoop]
      cases vm.tape.current with
      | error e => rfl
      | ok b =>
          dsimp only
          split
          · exact hjump _ _
          · rfl
  | loopBack =>
      show vm.closeLoop s = ((vm.closeLoop s').1, (vm.closeLoop s').2.1, s)
      rw [closeLoop, closeLoop]
      cases vm.tape.current with
      | error e => rfl
      | ok b =>
          dsimp only
          split
          · rfl
          · exact hjump _ _

/-- Reading is one call, and its answer might as well have been fetched beforehand. -/
theorem takeInput_eq (ch : Channels σ) (vm : Machine) (s : σ) : vm.takeInput ch s
    = ((vm.takeInput .prepared { read := (ch.read s).1 }).1,
        (vm.takeInput .prepared { read := (ch.read s).1 }).2.1, (ch.read s).2) := by
  simp only [takeInput, Channels.prepared]
  rcases ch.read s with ⟨e | chunk, s'⟩
  · rfl
  · dsimp only
    rcases chunk.first? with _ | e | v
    · rfl
    · rfl
    · dsimp only
      rw [alter, alter]
      cases vm.tape.here with
      | ok i => rfl
      | error e => rfl

/-- Writing is one call, and its answer might as well have been fetched beforehand. -/
theorem giveOutput_eq {b : UInt8} (hc : vm.tape.current = .ok b) (ch : Channels σ) (s : σ) :
    vm.giveOutput ch s = ((vm.giveOutput .prepared { write := (ch.write b s).1 }).1,
      (vm.giveOutput .prepared { write := (ch.write b s).1 }).2.1, (ch.write b s).2) := by
  simp only [giveOutput, hc, Channels.prepared]
  rcases ch.write b s with ⟨e | report, s'⟩
  · rfl
  · dsimp only
    split
    · rfl
    · rfl

theorem giveOutput_of_error {e : AddressError} (hc : vm.tape.current = .error e) (ch : Channels σ)
    (s : σ) : vm.giveOutput ch s = (.error (.address e), vm, s) := by
  rw [giveOutput, hc]
  rfl

/-- An operation makes the call that it demands, and no other. -/
theorem streams_execute (hf : vm.fetch = some (.operation op)) (ch : Channels σ) (s : σ) :
    (vm.execute ch op s).2.2 = ch.serveAll s vm.demand?.toList := by
  cases op with
  | input =>
      rw [demand?_input hf, execute, takeInput_eq]
      rfl
  | output =>
      rw [demand?, hf, execute]
      cases hc : vm.tape.current with
      | ok b =>
          rw [giveOutput_eq hc]
          rfl
      | error e =>
          rw [giveOutput_of_error hc]
          rfl
  | _ =>
      rw [demand?, hf, execute_other (by decide) (by decide) ch ch s s]
      rfl

/-- An operation sees nothing of the streams but the answer to its call. -/
theorem execute_congr (hf : vm.fetch = some (.operation op))
    (h : ∀ d, vm.demand? = some d → ch.SameAnswer s ch' s' d) :
    (vm.execute ch op s).1 = (vm.execute ch' op s').1
      ∧ (vm.execute ch op s).2.1 = (vm.execute ch' op s').2.1 := by
  cases op with
  | input =>
      have hread : (ch.read s).1 = (ch'.read s').1 := h _ (demand?_input hf)
      rw [execute, execute, takeInput_eq, takeInput_eq ch' vm s', hread]
      exact ⟨rfl, rfl⟩
  | output =>
      rw [execute, execute]
      cases hc : vm.tape.current with
      | ok b =>
          have hdemand : vm.demand? = some (.write b) := by rw [demand?, hf, hc]
          have hwrite : (ch.write b s).1 = (ch'.write b s').1 := h _ hdemand
          rw [giveOutput_eq hc, giveOutput_eq hc ch' s', hwrite]
          exact ⟨rfl, rfl⟩
      | error e =>
          rw [giveOutput_of_error hc, giveOutput_of_error hc]
          exact ⟨rfl, rfl⟩
  | _ =>
      rw [execute_other (by decide) (by decide) ch ch' s s']
      exact ⟨rfl, rfl⟩

-- ── Steps ────────────────────────────────────────────────────────────────────────

/-- **A step asks for nothing and executes nothing, or executes an operation** and asks for what
    this demands. -/
theorem stops_or_executes (vm : Machine) :
    (vm.request? = none ∧ ∃ r, r ≠ .ok true
      ∧ ∀ {σ : Type} (ch : Channels σ) (s : σ), vm.next ch s = (r, vm, s))
    ∨ ∃ op, vm.fetch = some (.operation op) ∧ vm.request? = vm.demand?
      ∧ ∀ {σ : Type} (ch : Channels σ) (s : σ), vm.next ch s
        = ((vm.execute ch op s).1.map fun _ => true, (vm.execute ch op s).2) := by
  rw [request?]
  simp only [next, step]
  cases hf : vm.fetch with
  | none => exact Or.inl ⟨rfl, .ok false, nofun, fun _ _ => rfl⟩
  | some x =>
      dsimp only
      cases vm.trace? x with
      | error f => exact Or.inl ⟨rfl, .error f, nofun, fun _ _ => rfl⟩
      | ok e? =>
          -- what is no operation demands nothing, also where it can be traced
          have hforeign (h : ∀ op, x ≠ .operation op) : vm.demand? = none := by
            refine demand?_other ?_ ?_
            · exact fun hi => h .input (Option.some.inj (hf.symm.trans hi))
            · exact fun ho => h .output (Option.some.inj (hf.symm.trans ho))
          cases x with
          | operation op =>
              refine Or.inr ⟨op, rfl, rfl, fun ch s => ?_⟩
              dsimp only
              rcases vm.execute ch op s with ⟨_ | _, _, _⟩
              · rfl
              · rfl
          | token t =>
              exact Or.inl ⟨hforeign nofun, .error (.foreign (.token t)), nofun, fun _ _ => rfl⟩
          | bare v =>
              exact Or.inl ⟨hforeign nofun, .error (.foreign (.bare v)), nofun, fun _ _ => rfl⟩
          | empty =>
              exact Or.inl ⟨hforeign nofun, .error (.foreign .empty), nofun, fun _ _ => rfl⟩

/-- An executed operation has asked for all that it demands. -/
theorem request?_of_next (h : (vm.next ch s).1 = .ok true) : vm.request? = vm.demand? := by
  rcases vm.stops_or_executes with ⟨-, r, hr, hn⟩ | ⟨op, -, hrequest, -⟩
  · rw [hn] at h
    exact absurd h hr
  · exact hrequest

/-- **A step makes the call that it asks for, and no other.** -/
theorem streams_next_of_request (ch : Channels σ) (vm : Machine) (s : σ) :
    (vm.next ch s).2.2 = ch.serveAll s vm.request?.toList := by
  rcases vm.stops_or_executes with ⟨hrequest, r, -, hn⟩ | ⟨op, hf, hrequest, hn⟩
  · rw [hn, hrequest]
    rfl
  · rw [hn, hrequest]
    exact streams_execute hf ch s

/-- **A step sees nothing of the streams but the answer to its call.** -/
theorem next_congr_of_request (h : ∀ d, vm.request? = some d → ch.SameAnswer s ch' s' d) :
    (vm.next ch s).1 = (vm.next ch' s').1 ∧ (vm.next ch s).2.1 = (vm.next ch' s').2.1 := by
  rcases vm.stops_or_executes with ⟨-, r, -, hn⟩ | ⟨op, hf, hrequest, hn⟩
  · rw [hn, hn]
    exact ⟨rfl, rfl⟩
  · rw [hrequest] at h
    obtain ⟨hresult, hmachine⟩ := execute_congr hf h
    rw [hn, hn, hresult]
    exact ⟨rfl, hmachine⟩

/-- A write that is accepted is executed. -/
theorem next_of_write {b : UInt8} (h : vm.request? = some (.write b)) {report : Value}
    (hw : (ch.write b s).1 = .ok report) (hz : report.isZero = false) :
    (vm.next ch s).1 = .ok true := by
  obtain ⟨hf, hc⟩ := fetch_of_demand?_eq_write (demand?_of_request? h)
  rcases vm.stops_or_executes with ⟨hrequest, -⟩ | ⟨op, hop, -, hn⟩
  · rw [hrequest] at h
    cases h
  · obtain rfl : op = .output := Element.operation.inj (Option.some.inj (hop.symm.trans hf))
    rw [hn, execute, giveOutput_eq hc, hw]
    simp [giveOutput, hc, Channels.prepared, hz, proceed, Except.map]

end Machine

end TapeMachine
