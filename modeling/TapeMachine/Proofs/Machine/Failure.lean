import TapeMachine.Diagnostic
import TapeMachine.Proofs.Machine.Traffic

/-!
# Failures

A failure leaves the machine as it was: the streams may have moved on, but program, place, pointer
and cells have not. So a machine whose step has failed can be asked for a step again, and goes on
from where it stands.

* `aborted_mem_events_iff` — a run is reported as aborted when it fails with an error of executing
  its program, with the number of its steps.
* `HaltedBy` — what an aborted run was at: a bracket without a partner, a call of a stream, or the
  flush at the end. The place that the error tells is that of the machine, unless a stream has
  raised the error, which then tells whatever it was made with.
* `after_replayed` — steps that fail **might as well not have been asked for**: any number of calls
  comes to what the successful ones among them come to, on streams that never fail and give the
  same answers.

All of this is so for every machine, whatever elements its program has and wherever its pointer
stands.
-/

namespace TapeMachine

namespace Channels

variable {σ : Type}

/-- The answer to the call of a demand, kept for later. -/
def answer (ch : Channels σ) (s : σ) : Demand → Prepared
  | .read    => { read := (ch.read s).1 }
  | .write b => { write := (ch.write b s).1 }

/-- Channels that give a row of answers kept from before, one for each call. -/
def replayed : Channels (List Prepared) where
  read
    | []      => (.ok .nothing, [])
    | a :: as => (a.read, as)
  write _
    | []      => (.ok .absent, [])
    | a :: as => (a.write, as)
  flush? := none

end Channels

/-- The place that an error tells. -/
def Fault.ip? (f : Fault) : Option Value :=
  (Diagnostic.ofFault f).own?.bind Particulars.ip?

/-- A value that does not count as a number is complained about, but not by an error of this
    library. -/
theorem Raised.isExecution_of_cellNumber {v : Value} {e : Raised} (h : cellNumber v = .error e) :
    e.isExecution = false := by
  unfold cellNumber at h
  split at h
  · split at h
    · exact nomatch h
    · rw [← Except.error.inj h]
      rfl
  · cases hn : v.toInt? with
    | none =>
        rw [hn] at h
        rw [← Except.error.inj h]
        rfl
    | some m =>
        rw [hn] at h
        exact nomatch h

/-- What is read and does not start with a number is complained about so, too. -/
theorem Chunk.isExecution_of_first? {chunk : Chunk} {e : Raised}
    (h : chunk.first? = some (.error e)) : e.isExecution = false := by
  cases chunk with
  | bytes bs =>
      obtain ⟨b, -, hb⟩ := Option.map_eq_some_iff.mp h
      exact nomatch hb
  | text t =>
      obtain ⟨c, -, hc⟩ := Option.map_eq_some_iff.mp h
      exact nomatch hc
  | items vs =>
      obtain ⟨v, -, hv⟩ := Option.map_eq_some_iff.mp h
      exact Raised.isExecution_of_cellNumber hv
  | nothing => exact nomatch h

namespace Machine

variable {σ : Type} {ch : Channels σ} {vm vm' : Machine} {s s' : σ} {k n limit : Nat} {f : Fault}
  {e : Event} {events : Array Event}

-- ── Reports ──────────────────────────────────────────────────────────────────────

/-- The trace of an element is a trace. -/
theorem isTrace_of_trace {x : Element} (h : vm.trace x = .ok e) : e.isTrace = true := by
  rw [trace] at h
  split at h
  · rw [← Except.ok.inj h]
    rfl
  · cases h
  · cases h
  · cases h

/-- A step reports nothing but its trace. -/
theorem isTrace_of_event? (h : (vm.step ch s).event? = some e) : e.isTrace = true := by
  rw [event?_step_eq, Option.bind_eq_some_iff] at h
  obtain ⟨x, -, hx⟩ := h
  rw [trace?] at hx
  split at hx
  · cases ht : vm.trace x with
    | ok e' =>
        rw [ht] at hx
        obtain rfl : e' = e := Option.some.inj hx
        exact isTrace_of_trace ht
    | error f =>
        rw [ht] at hx
        cases hx
  · cases hx

theorem mem_log {e? : Option Event} (h : e ∈ Event.log events e?) : e ∈ events ∨ e? = some e := by
  cases e? with
  | none => exact Or.inl h
  | some e' =>
      rcases Array.mem_push.mp h with h | rfl
      · exact Or.inl h
      · exact Or.inr rfl

/-- All that steps add to the reports are traces. -/
theorem mem_events_advanceFrom (h : e ∈ (advanceFrom ch n k events vm s).events) :
    e ∈ events ∨ e.isTrace = true := by
  induction n generalizing k events vm s with
  | zero => exact Or.inl h
  | succ n ih =>
      have hlog (h : e ∈ Event.log events (vm.step ch s).event?) :
          e ∈ events ∨ e.isTrace = true :=
        (mem_log h).imp_right isTrace_of_event?
      rw [advanceFrom_succ] at h
      rcases hn : vm.next ch s with ⟨_ | _ | _, vm', s'⟩
      · rw [hn] at h
        exact hlog h
      · rw [hn] at h
        exact hlog h
      · rw [hn] at h
        rcases ih h with h | h
        · exact hlog h
        · exact Or.inr h

theorem aborted_not_mem_events_course : .aborted k f ∉ (vm.course ch limit s).events := by
  intro h
  rcases mem_events_advanceFrom h with h | h
  · exact nomatch Array.mem_singleton.mp h
  · exact nomatch h

/-- Only a fault of executing the program adds such a report, and only its own. -/
theorem aborted_mem_abort_iff {m : Nat} {g : Fault} (h : .aborted k f ∉ events) :
    .aborted k f ∈ abort m g events ↔ g = f ∧ f.isExecution = true ∧ m = k := by
  rw [abort]
  constructor
  · intro hmem
    split at hmem
    · next hexec =>
        rcases Array.mem_push.mp hmem with hmem | heq
        · exact absurd hmem h
        · obtain ⟨rfl, rfl⟩ := Event.aborted.inj heq
          exact ⟨rfl, hexec, rfl⟩
    · exact absurd hmem h
  · rintro ⟨rfl, hexec, rfl⟩
    rw [if_pos hexec]
    exact Array.mem_push_self

/-- **A run is reported as aborted exactly when it fails with an error of executing its program**,
    after as many steps as the report says. -/
theorem aborted_mem_events_iff : .aborted k f ∈ (vm.run ch limit s).events
    ↔ (vm.run ch limit s).outcome = .failed f ∧ f.isExecution = true
      ∧ (vm.run ch limit s).steps = k := by
  have hcourse : .aborted k f ∉ (vm.course ch limit s).events := aborted_not_mem_events_course
  rw [run_eq_conclude]
  generalize vm.course ch limit s = r at hcourse
  obtain ⟨o, vm', s', m, events⟩ := r
  cases o with
  | finished =>
      rw [conclude]
      dsimp only
      rcases flush ch vm'.ip s' with ⟨g | _, s''⟩
      · dsimp only
        rw [aborted_mem_abort_iff hcourse, Outcome.failed.injEq]
      · simp [hcourse]
  | failed g =>
      rw [conclude]
      dsimp only
      rw [aborted_mem_abort_iff hcourse, Outcome.failed.injEq]
  | unfinished => simp [conclude, hcourse]

-- ── What an aborted run was at ───────────────────────────────────────────────────

/-- The program of a machine has ended: nothing is left of it, or the next place is empty. -/
def Ended (vm : Machine) : Prop :=
  vm.ip = vm.program.size ∨ vm.program[vm.ip]? = some .empty

/-- At a place of its program or at the end of it, a machine that finds nothing to execute is at the
    end of its program. -/
theorem ended_of_fetch (hip : vm.ip ≤ vm.program.size) (hf : vm.fetch = none) : vm.Ended := by
  rcases Nat.lt_or_ge vm.ip vm.program.size with hlt | hge
  · have hx : vm.program[vm.ip]? = some vm.program[vm.ip] := Array.getElem?_eq_getElem hlt
    refine Or.inr ?_
    rw [fetch] at hf
    split at hf
    · next hempty => exact hempty
    · cases hx.symm.trans hf
  · exact Or.inl (Nat.le_antisymm hip hge)

/-- Where the program has ended there is nothing to execute. -/
theorem Ended.fetch_eq_none (h : vm.Ended) : vm.fetch = none := by
  rcases h with hip | hempty
  · exact fetch_of_size_le (Nat.le_of_eq hip.symm)
  · rw [fetch, hempty]

/-- A run never leaves its program. -/
theorem ip_le_after (ha : vm.reset.after ch k s = some (vm', s')) : vm'.ip ≤ vm'.program.size :=
  after_invariant (P := fun vm => vm.ip ≤ vm.program.size) (fun _ s hvm => ip_le_next hvm ch s)
    (Nat.zero_le _) ha

/-- The program has ended, and the flush of the output raises an error. -/
def FlushRaises (ch : Channels σ) (vm : Machine) (s : σ) (e : Raised) : Prop :=
  vm.Ended ∧ ∃ flush, ch.flush? = some flush ∧ (flush s).1 = .error e

/-- What a machine and its streams are at when a run is aborted with a fault: a step that fails, or
    the flush behind the last step. -/
inductive HaltedBy (ch : Channels σ) (vm : Machine) (s : σ) : Fault → Prop where
  /-- A loop is to be left out and has no end. -/
  | unmatchedOpen (hf : vm.fetch = some .opening) (hc : vm.tape.current = .ok 0)
      (hr : (vm.step ch s).result = .error (.unmatchedOpen vm.ip)) :
      HaltedBy ch vm s (.unmatchedOpen vm.ip)
  /-- A loop is to be repeated and has no beginning. -/
  | unmatchedClose (b : UInt8) (hf : vm.fetch = some .closing) (hc : vm.tape.current = .ok b)
      (hb : b ≠ 0) (hr : (vm.step ch s).result = .error (.unmatchedClose vm.ip)) :
      HaltedBy ch vm s (.unmatchedClose vm.ip)
  /-- An element is to be read or a byte to be written. -/
  | transfer (why : StreamFailure)
      (hf : vm.fetch = some (.operation .input) ∨ vm.fetch = some (.operation .output))
      (hr : (vm.step ch s).result = .error (.stream vm.ip why)) :
      HaltedBy ch vm s (.stream vm.ip why)
  /-- The output is to be flushed where the program has ended. -/
  | flush (e : Raised) (he : FlushRaises ch vm s e) : HaltedBy ch vm s (.stream vm.ip (.raised e))
  /-- A stream has raised an error of executing a program, which is no failure of a stream. -/
  | passed (e : Raised) (he : CallRaises ch vm s e ∨ FlushRaises ch vm s e)
      (hh : e.isHandled = false) (hexec : e.isExecution = true) : HaltedBy ch vm s (.passed e)

/-- An error that the machine itself has made tells the place where the machine is. -/
theorem HaltedBy.ip?_eq (h : HaltedBy ch vm s f) (hf : ∀ e, f ≠ .passed e) :
    f.ip? = some (.whole vm.ip) := by
  cases h with
  | passed e => exact absurd rfl (hf e)
  | _ => rfl

/-- A call that raises an error halts the machine if the error is one of executing a program, its
    own or that of the stream. -/
theorem haltedBy_of_raises {e : Raised} (he : CallRaises ch vm s e)
    (hf : vm.fetch = some (.operation .input) ∨ vm.fetch = some (.operation .output))
    (hr : (vm.step ch s).result = .error (.ofRaised vm.ip e))
    (hexec : (Fault.ofRaised vm.ip e).isExecution = true) :
    HaltedBy ch vm s (.ofRaised vm.ip e) := by
  rcases Fault.ofRaised_cases vm.ip e with ⟨-, hofRaised⟩ | ⟨hh, hofRaised⟩
  · rw [hofRaised] at hr ⊢
    exact .transfer _ hf hr
  · rw [hofRaised] at hexec ⊢
    exact .passed e (Or.inl he) hh hexec

/-- A step that fails with an error of executing its program is at what the error says. -/
theorem haltedBy_of_step (hon : vm.tape.OnTape) (hr : (vm.step ch s).result = .error f)
    (hexec : f.isExecution = true) : HaltedBy ch vm s f := by
  have hcase := stepCase hon ch s
  have hres : (vm.next ch s).1 = .error f := hr
  generalize vm.next ch s = r at hcase hres
  cases hcase with
  | refused op g s' hf hp =>
      obtain rfl : g = f := Except.error.inj hres
      have hperform := Elementary.performCase ch vm.ip hon s op
      rw [hp] at hperform
      cases hperform with
      | misfit chunk e s' _ hv =>
          exact nomatch (Chunk.isExecution_of_first? hv).symm.trans hexec
      | exhausted => exact .transfer _ (Or.inl hf) hr
      | unreadable e s' hread =>
          exact haltedBy_of_raises (Or.inl ⟨hf, congrArg Prod.fst hread⟩) (Or.inl hf) hr hexec
      | refused => exact .transfer _ (Or.inr hf) hr
      | unwritable e s' hwrite =>
          exact haltedBy_of_raises (Or.inr ⟨hf, _, hon.current_eq, congrArg Prod.fst hwrite⟩)
            (Or.inr hf) hr hexec
  | endless hf hc =>
      obtain rfl := Except.error.inj hres
      exact .unmatchedOpen hf hc hr
  | startless b hf hc hb =>
      obtain rfl := Except.error.inj hres
      exact .unmatchedClose b hf hc hb hr
  | foreign x g hf hx hk =>
      obtain rfl : g = f := Except.error.inj hres
      rcases hk with rfl | rfl
      · exact nomatch hexec
      · exact nomatch hexec
  | _ => exact nomatch hres

/-- A run that failed has come, by as many steps as it counts, to a step that fails so, or to the
    end of its program and a flush that raises an error. -/
theorem moment_of_failed (ho : (vm.run ch limit s).outcome = .failed f) :
    ∃ s', vm.reset.after ch (vm.run ch limit s).steps s = some ((vm.run ch limit s).machine, s')
      ∧ (((vm.run ch limit s).machine.step ch s').result = .error f
        ∨ ∃ e, FlushRaises ch (vm.run ch limit s).machine s' e
          ∧ f = .ofRaised (vm.run ch limit s).machine.ip e) := by
  rw [run_eq_conclude, steps_conclude, machine_conclude] at *
  rcases outcome_conclude ho with hfail | ⟨hfin, flush, e, hflush, he, hf⟩
  · obtain ⟨r, s', -, -, hr, hafter, hn⟩ := stop_of_course (by rw [hfail]; exact nofun)
    obtain rfl : r = .error f := Outcome.ofResult_eq_failed (hr.symm.trans hfail)
    exact ⟨s', hafter, Or.inl (congrArg Prod.fst hn)⟩
  · obtain ⟨r, s', -, -, hr, hafter, hn⟩ := stop_of_course (by rw [hfin]; exact nofun)
    obtain rfl : r = .ok false := Outcome.ofResult_eq_finished (hr.symm.trans hfin)
    have hend := (next_eq_false_iff (onTape_after Tape.onTape_reset hafter) ch s').mp
      (congrArg Prod.fst hn)
    -- The last step has found nothing to execute, so the flush meets the streams as they were.
    rw [next_of_fetch_eq_none hend] at hn
    have hs : s' = (vm.course ch limit s).streams := congrArg (·.2.2) hn
    rw [← hs] at he
    have hended : (vm.course ch limit s).machine.Ended := ended_of_fetch (ip_le_after hafter) hend
    exact ⟨s', hafter, Or.inr ⟨e, ⟨hended, flush, hflush, he⟩, hf⟩⟩

/-- **An aborted run has come, by as many steps as it reports, to where its fault is.** -/
theorem haltedBy_of_aborted (ha : .aborted k f ∈ (vm.run ch limit s).events) :
    ∃ s', vm.reset.after ch k s = some ((vm.run ch limit s).machine, s')
      ∧ HaltedBy ch (vm.run ch limit s).machine s' f := by
  obtain ⟨ho, hexec, rfl⟩ := aborted_mem_events_iff.mp ha
  obtain ⟨s', hafter, hr | ⟨e, he, rfl⟩⟩ := moment_of_failed ho
  · exact ⟨s', hafter, haltedBy_of_step (onTape_after Tape.onTape_reset hafter) hr hexec⟩
  · refine ⟨s', hafter, ?_⟩
    rcases Fault.ofRaised_cases (vm.run ch limit s).machine.ip e with ⟨-, hf⟩ | ⟨hh, hf⟩
    · rw [hf]
      exact .flush e he
    · rw [hf] at hexec ⊢
      exact .passed e (Or.inr he) hh hexec

-- ── Asking again ─────────────────────────────────────────────────────────────────

/-- Of `n` calls for a step, whatever comes of them, those that execute an operation: the answer
    that the streams give to each, if it asks for one. -/
def granted (ch : Channels σ) : Nat → Machine → σ → List (Option Prepared)
  | 0, _, _      => []
  | n + 1, vm, s =>
    match vm.next ch s with
    | (.ok true, vm', s') => vm.request?.map (ch.answer s) :: granted ch n vm' s'
    | (_, vm', s')        => granted ch n vm' s'

/-- A step that finds its answer in front of others takes it, and goes as it went. -/
theorem next_replayed (ch : Channels σ) (vm : Machine) (s : σ) (as : List Prepared) :
    vm.next .replayed ((vm.request?.map (ch.answer s)).toList ++ as)
      = ((vm.next ch s).1, (vm.next ch s).2.1, as) := by
  have hanswer : ∀ d, vm.request? = some d → Channels.replayed.SameAnswer
      ((vm.request?.map (ch.answer s)).toList ++ as) ch s d := by
    intro d hd
    rw [hd]
    cases d with
    | read => rfl
    | write b => rfl
  obtain ⟨hresult, hmachine⟩ := next_congr_of_request hanswer
  refine Prod.ext hresult (Prod.ext hmachine ?_)
  rw [streams_next_of_request]
  cases hd : vm.request? with
  | none => rfl
  | some d =>
      cases d with
      | read => rfl
      | write b => rfl

theorem granted_succ_of_ok (h : vm.next ch s = (.ok true, vm', s')) (n : Nat) :
    vm.granted ch (n + 1) s = vm.request?.map (ch.answer s) :: vm'.granted ch n s' := by
  rw [granted, h]

/-- A call that fails grants nothing, and the next one finds the same machine. -/
theorem granted_succ_of_ne (h : (vm.next ch s).1 ≠ .ok true) (n : Nat) :
    vm.granted ch (n + 1) s = vm.granted ch n (vm.next ch s).2.2 := by
  have hmachine := machine_next_of_ne h
  rw [granted]
  split
  · next vm' s' hn => exact absurd (congrArg Prod.fst hn) h
  · next r vm' s' _ hn =>
      rw [hn] at hmachine ⊢
      rw [show vm' = vm from hmachine]

theorem obeyAll_step (ch : Channels σ) (n : Nat) (vm : Machine) (s : σ) :
    obeyAll ch (vm, s) (List.replicate (n + 1) .step)
      = obeyAll ch ((vm.next ch s).2.1, (vm.next ch s).2.2) (List.replicate n .step) := rfl

/-- **Steps that fail might as well not have been asked for.** -/
theorem after_replayed (ch : Channels σ) (n : Nat) (vm : Machine) (s : σ) :
    vm.after .replayed (vm.granted ch n s).length ((vm.granted ch n s).flatMap Option.toList)
      = some ((obeyAll ch (vm, s) (List.replicate n .step)).1, []) := by
  induction n generalizing vm s with
  | zero => rfl
  | succ n ih =>
      rw [obeyAll_step]
      rcases next_cases ch vm s with ⟨vm', s', hn⟩ | hn
      · have hnext := next_replayed ch vm s ((vm'.granted ch n s').flatMap Option.toList)
        rw [granted_succ_of_ok hn, List.length_cons, List.flatMap_cons]
        rw [hn] at hnext ⊢
        rw [after_succ_of_ok hnext]
        exact ih vm' s'
      · rw [granted_succ_of_ne hn, machine_next_of_ne hn]
        exact ih vm _

-- ── What holds of every machine ──────────────────────────────────────────────────

/-- What a failure does to a machine, and what it leaves to be done. -/
structure FailsCleanly (ch : Channels σ) (vm : Machine) (s : σ) : Prop where
  /-- A step that fails leaves program, place, pointer and every cell as they were. -/
  step_eq    : ∀ f, (vm.step ch s).result = .error f → (vm.step ch s).machine = vm
  /-- A run is reported as aborted when it fails with an error of executing its program. -/
  reported   : ∀ limit k f, .aborted k f ∈ (vm.run ch limit s).events ↔
    (vm.run ch limit s).outcome = .failed f ∧ f.isExecution = true
      ∧ (vm.run ch limit s).steps = k
  /-- A run reported as aborted after `k` steps leaves what a reset and `k` steps that succeed
      leave, and its fault is about what is there. -/
  aborted    : ∀ limit k f, .aborted k f ∈ (vm.run ch limit s).events →
    ∃ s', vm.reset.after ch k s = some ((vm.run ch limit s).machine, s')
      ∧ HaltedBy ch (vm.run ch limit s).machine s' f
  /-- The place that the error tells is that of the machine, unless a stream has raised it. -/
  placed     : ∀ limit k f, .aborted k f ∈ (vm.run ch limit s).events → (∀ e, f ≠ .passed e) →
    f.ip? = some (.whole (vm.run ch limit s).machine.ip)
  /-- A call for a step that follows a failed one executes the same operation on the same machine:
      any number of calls, failed ones among them, comes to what those that succeed come to on
      streams that give them the same answers and nothing else. -/
  continued  : ∀ n, vm.after .replayed (vm.granted ch n s).length
      ((vm.granted ch n s).flatMap Option.toList)
    = some ((obeyAll ch (vm, s) (List.replicate n .step)).1, [])

/-- **Every machine fails cleanly**, whatever its program is and whatever the streams do. -/
theorem fails_cleanly (ch : Channels σ) (vm : Machine) (s : σ) : FailsCleanly ch vm s := by
  refine ⟨?_, fun _ _ _ => aborted_mem_events_iff, fun _ _ _ => haltedBy_of_aborted, ?_,
    fun n => after_replayed ch n vm s⟩
  · intro f hf
    have hresult : (vm.next ch s).1 = .error f := hf
    have hne : (vm.next ch s).1 ≠ .ok true := by
      rw [hresult]
      exact nofun
    exact machine_next_of_ne hne
  · intro limit k f ha hf
    obtain ⟨s', -, hhalted⟩ := haltedBy_of_aborted ha
    exact hhalted.ip?_eq hf

/-- Not every aborted run is reported with the place of the machine: an input may raise the error of
    a bracket that is somewhere else. Nor is it always at the end of the program that a flush fails:
    an empty place ends the program before. -/
theorem not_all_aborts_placed :
    (¬ ∀ (vm : Machine) (s : Prepared) (limit k : Nat) (f : Fault),
        .aborted k f ∈ (vm.run .prepared limit s).events →
          f.ip? = some (.whole (vm.run .prepared limit s).machine.ip))
    ∧ ¬ ∀ (vm : Machine) (s : Prepared) (limit k ip : Nat) (e : Raised),
        .aborted k (.stream ip (.raised e)) ∈ (vm.run .prepared limit s).events →
          (vm.run .prepared limit s).machine.fetch = some (.operation .input)
          ∨ (vm.run .prepared limit s).machine.fetch = some (.operation .output)
          ∨ ip = vm.program.size := by
  constructor
  · intro hall
    let raised : Raised := (Diagnostic.unmatchedOpen (.whole 17)).toRaised
    have hplace := hall ((fresh 1 Nat.one_pos false).load (.ofOperations [.input]))
      { read := .error raised } 9 0 (.passed raised) (aborted_mem_events_iff.mpr ⟨rfl, rfl, rfl⟩)
    have hwhole : (17 : Int) = 0 := Value.whole.inj (Option.some.inj hplace)
    exact absurd hwhole (by decide)
  · intro hall
    let broken : Raised := { kind := .system .general, args := [.words "boom"] }
    have hplace := hall
      ((fresh 1 Nat.one_pos false).load #[.operation .increment, .empty, .operation .increment])
      { flush := .error broken } 9 1 1 broken (aborted_mem_events_iff.mpr ⟨rfl, rfl, rfl⟩)
    rcases hplace with hf | hf | hsize
    · exact nomatch hf
    · exact nomatch hf
    · exact absurd hsize (by decide)

end Machine

end TapeMachine
