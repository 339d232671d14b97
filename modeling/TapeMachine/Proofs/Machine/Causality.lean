import TapeMachine.Proofs.Machine.Buffered
import TapeMachine.Proofs.Machine.Lockstep

/-!
# Causality

What a machine does is decided by the bytes that it has read, not by those that are still to come.
A machine over an input `w` goes **in lockstep with the same machine over `w ++ x`** for as long as
it does not ask for more than `w` has (`lockstep_longer`). When it does, its own run ends there, and
the other one goes on from the same state and only adds to what has been written.

`Causal` puts together what this means for whole runs.
-/

namespace TapeMachine

/-- The bytes that a buffer holds, wherever it stands. -/
def Handle.held (h : Handle) (ds : Devices) : List UInt8 :=
  match ds[h.place]? with
  | some (.bytes b) => b.contents.toList
  | _               => []

namespace Devices

variable {input output : Handle} {w x out : Array UInt8} {k : Nat} {ds ds' ds₀ ds₀' : Devices}
  {d : Demand}

/-- Two rows of streams whose inputs, `w` and `w ++ x`, both stand at byte `k`, which is not behind
    the end of `w`, and whose outputs both hold `out`. -/
structure AgreeAt (input output : Handle) (w x : Array UInt8) (k : Nat) (out : Array UInt8)
    (ds ds' : Devices) : Prop where
  within  : k ≤ w.size
  taken   : ds[input.place]? = some (.bytes { contents := w, position := k })
  taken'  : ds'[input.place]? = some (.bytes { contents := w ++ x, position := k })
  given   : ds[output.place]? = some (.bytes { contents := out, position := out.size })
  given'  : ds'[output.place]? = some (.bytes { contents := out, position := out.size })

/-- Two rows of streams, one with the input `w` and one with `w ++ x`, that have been read equally
    far and have the same output. -/
def Agree (input output : Handle) (w x : Array UInt8) (ds ds' : Devices) : Prop :=
  ∃ k out, AgreeAt input output w x k out ds ds'

theorem Agree.held_eq (h : Agree input output w x ds ds') : output.held ds' = output.held ds := by
  obtain ⟨k, out, hk⟩ := h
  rw [Handle.held, Handle.held, hk.given, hk.given']

theorem agree_of_buffers (hin : ds[input.place]? = some (.bytes { contents := w }))
    (hout : ds[output.place]? = some (.bytes {}))
    (hin' : ds'[input.place]? = some (.bytes { contents := w ++ x }))
    (hout' : ds'[output.place]? = some (.bytes {})) : Agree input output w x ds ds' :=
  ⟨0, #[], Nat.zero_le _, hin, hin', hout, hout'⟩

theorem AgreeAt.sameAnswer (h : AgreeAt input output w x k out ds ds')
    (hd : d = .read → k < w.size) :
    Channels.SameAnswer (.ofHandles input output ds₀) ds (.ofHandles input output ds₀') ds' d := by
  cases d with
  | read =>
      have hbyte : (w ++ x)[k]? = w[k]? := Array.getElem?_append_left (hd rfl)
      show ((Channels.ofHandles input output ds₀).read ds).1
        = ((Channels.ofHandles input output ds₀').read ds').1
      rw [Channels.read_ofHandles h.taken, Channels.read_ofHandles h.taken', hbyte]
  | write b =>
      show ((Channels.ofHandles input output ds₀).write b ds).1
        = ((Channels.ofHandles input output ds₀').write b ds').1
      rw [Channels.write_ofHandles h.given, Channels.write_ofHandles h.given']

/-- One more call leaves them equally far, if there is a byte of `w` for it. -/
theorem AgreeAt.serve (hne : input.place ≠ output.place) (h : AgreeAt input output w x k out ds ds')
    (hd : d = .read → k < w.size) :
    Agree input output w x ((Channels.ofHandles input output ds₀).serve ds d)
      ((Channels.ofHandles input output ds₀').serve ds' d) := by
  cases d with
  | read =>
      have hk := hd rfl
      have hk' : k < (w ++ x).size := by
        rw [Array.size_append]
        exact Nat.lt_add_right _ hk
      refine ⟨k + 1, out, hk, ?_, ?_, ?_, ?_⟩
      · rw [Channels.serve, Channels.read_ofHandles h.taken, Array.getElem?_eq_getElem hk]
        exact getElem?_setIfInBounds_self h.taken _
      · rw [Channels.serve, Channels.read_ofHandles h.taken', Array.getElem?_eq_getElem hk']
        exact getElem?_setIfInBounds_self h.taken' _
      · rw [Channels.serve, Channels.read_ofHandles h.taken]
        exact (Array.getElem?_setIfInBounds_ne hne).trans h.given
      · rw [Channels.serve, Channels.read_ofHandles h.taken']
        exact (Array.getElem?_setIfInBounds_ne hne).trans h.given'
  | write b =>
      refine ⟨k, out.push b, h.within, ?_, ?_, ?_, ?_⟩
      · rw [Channels.serve, Channels.write_ofHandles h.given]
        exact (Array.getElem?_setIfInBounds_ne hne.symm).trans h.taken
      · rw [Channels.serve, Channels.write_ofHandles h.given']
        exact (Array.getElem?_setIfInBounds_ne hne.symm).trans h.taken'
      · rw [Channels.serve, Channels.write_ofHandles h.given, Array.size_push]
        exact getElem?_setIfInBounds_self h.given _
      · rw [Channels.serve, Channels.write_ofHandles h.given', Array.size_push]
        exact getElem?_setIfInBounds_self h.given' _

end Devices

namespace Machine

variable {input output : Handle} {w x : Array UInt8} {vm vm₁ vm₂ : Machine}
  {ds ds' ds₀ ds₀' s s' s₂ : Devices} {past : List Demand} {i m n limit ip : Nat}

-- ── Steps ────────────────────────────────────────────────────────────────────────

/-- The same machine on its tape, over `w` and over `w ++ x`. -/
def SameSoFar (input output : Handle) (w x : Array UInt8) (c c' : Machine × Devices) : Prop :=
  c.1.tape.OnTape ∧ c'.1 = c.1 ∧ Devices.Agree input output w x c.2 c'.2

/-- An `input`, if it is next, finds a byte of `w`. -/
def Supplied (input : Handle) (w : Array UInt8) (c : Machine × Devices) : Prop :=
  c.1.fetch = some (.operation .input) →
    ∃ k < w.size, c.2[input.place]? = some (.bytes { contents := w, position := k })

/-- Whatever is demanded, there is a byte of `w` for it if it needs one. -/
theorem Supplied.lt_size {out : Array UInt8} {k : Nat} {d : Demand} (h : Supplied input w (vm, ds))
    (hagree : Devices.AgreeAt input output w x k out ds ds') (hd : vm.demand? = some d)
    (hread : d = .read) : k < w.size := by
  subst hread
  obtain ⟨j, hj, hin⟩ := h (fetch_of_demand?_eq_read hd)
  obtain rfl : k = j :=
    congrArg Buffer.position (Device.bytes.inj (Option.some.inj (hagree.taken.symm.trans hin)))
  exact hj

/-- **Over a longer input a step is the same**, if it needs no more than the shorter one has. -/
theorem next_longer (hne : input.place ≠ output.place) (hon : vm.tape.OnTape)
    (hagree : Devices.Agree input output w x ds ds') (hsupplied : Supplied input w (vm, ds)) :
    (vm.next (.ofHandles input output ds₀) ds).1 = (vm.next (.ofHandles input output ds₀') ds').1
    ∧ (vm.next (.ofHandles input output ds₀) ds).2.1
      = (vm.next (.ofHandles input output ds₀') ds').2.1
    ∧ Devices.Agree input output w x (vm.next (.ofHandles input output ds₀) ds).2.2
        (vm.next (.ofHandles input output ds₀') ds').2.2 := by
  obtain ⟨k, out, h⟩ := hagree
  have hanswer : ∀ d, vm.demand? = some d → Channels.SameAnswer (.ofHandles input output ds₀) ds
      (.ofHandles input output ds₀') ds' d := by
    intro d hd
    exact h.sameAnswer (hsupplied.lt_size h hd)
  obtain ⟨hresult, hmachine⟩ := next_congr hon hanswer
  refine ⟨hresult, hmachine, ?_⟩
  rw [streams_next hon, streams_next hon]
  cases hd : vm.demand? with
  | none => exact ⟨k, out, h⟩
  | some d => exact h.serve hne (hsupplied.lt_size h hd)

theorem lockstep_longer (hne : input.place ≠ output.place) (ds₀ ds₀' : Devices) :
    Lockstep (.ofHandles input output ds₀) (.ofHandles input output ds₀') (Supplied input w) id
      (SameSoFar input output w x) where
  result := by
    rintro ⟨_, s⟩ ⟨vm, s'⟩ ⟨hon, rfl, hagree⟩ hsupplied
    obtain ⟨hresult, -, -⟩ := next_longer hne hon hagree hsupplied
    rw [mapError_id]
    exact hresult.symm
  kept := by
    rintro ⟨_, s⟩ ⟨vm, s'⟩ ⟨hon, rfl, hagree⟩ hsupplied
    obtain ⟨-, hmachine, hstreams⟩ := next_longer hne hon hagree hsupplied
    exact ⟨onTape_next hon _ s, hmachine.symm, hstreams⟩

/-- A flush leaves two buffers as they are. -/
theorem flushAlike_longer (ds₀ ds₀' : Devices) :
    FlushAlike (.ofHandles input output ds₀) (.ofHandles input output ds₀') id
      (SameSoFar input output w x) := by
  constructor
  · rintro ⟨_, s⟩ ⟨vm, s'⟩ ⟨-, rfl, k, out, h⟩
    rw [flush_buffer h.given, flush_buffer h.given']
    rfl
  · rintro ⟨_, s⟩ ⟨vm, s'⟩ ⟨hon, rfl, k, out, h⟩
    rw [flush_buffer h.given, flush_buffer h.given']
    exact ⟨hon, rfl, k, out, h⟩

-- ── Where the input ends ─────────────────────────────────────────────────────────

theorem exhausted_ne_ofRaised {k : Nat} {e : Raised} :
    Fault.stream k .exhausted ≠ .ofRaised ip e := by
  rcases Fault.ofRaised_cases ip e with ⟨-, he⟩ | ⟨-, he⟩
  · rw [he]
    exact nofun
  · rw [he]
    exact nofun

/-- Nothing but an `input` fails for want of input. -/
theorem input_of_exhausted {σ : Type} {ch : Channels σ} {op : Elementary} {t : Tape} {s s' : σ}
    {k : Nat} (hon : t.OnTape) (h : op.perform ch ip t s = (.error (.stream k .exhausted), s')) :
    op = .input ∧ ip = k := by
  generalize hf : Fault.stream k .exhausted = f at h
  have hcase := Elementary.performCase ch ip hon s op
  rw [h] at hcase
  cases hcase with
  | exhausted => exact ⟨rfl, (Fault.stream.inj hf).1.symm⟩
  | unreadable e => exact absurd hf exhausted_ne_ofRaised
  | unwritable e => exact absurd hf exhausted_ne_ofRaised
  | misfit => exact nomatch hf
  | refused => exact nomatch hf

/-- A step that fails for want of input is an `input`. -/
theorem fetch_of_exhausted {σ : Type} {ch : Channels σ} {s : σ} (hon : vm.tape.OnTape)
    (h : (vm.next ch s).1 = .error (.stream ip .exhausted)) :
    vm.fetch = some (.operation .input) ∧ vm.ip = ip := by
  have hcase := stepCase hon ch s
  generalize vm.next ch s = r at hcase h
  cases hcase with
  | refused op f s' hf hp =>
      obtain rfl : f = .stream ip .exhausted := Except.error.inj h
      obtain ⟨rfl, hip⟩ := input_of_exhausted hon hp
      exact ⟨hf, hip⟩
  | foreign x f hf hx hk =>
      obtain rfl : f = .stream ip .exhausted := Except.error.inj h
      rcases hk with hk | hk
      · exact nomatch hk
      · exact nomatch hk
  | _ => exact nomatch h

/-- What stands between a machine and a byte of `w` is the end of `w` alone. -/
theorem Tally.supplied_of_lt (h : Tally input output w past s)
    (hlt : vm.fetch = some (.operation .input) → past.count .read < w.size) :
    Supplied input w (vm, s) := by
  intro hf
  exact ⟨past.count .read, hlt hf, h.taken⟩

/-- A step that does not fail for want of input was supplied. -/
theorem Tally.supplied_of_ne (h : Tally input output w past s) (hon : vm.tape.OnTape)
    (hn : (vm.next (.ofHandles input output ds₀) s).1 ≠ .error (.stream vm.ip .exhausted)) :
    Supplied input w (vm, s) := by
  refine h.supplied_of_lt ?_
  intro hf
  refine Nat.lt_of_le_of_ne h.within ?_
  intro hk
  refine hn ?_
  rw [h.next_input_of_eq hon hf hk]

/-- A state that steps have led past was supplied. -/
theorem supplied_of_after (hon : vm.tape.OnTape) (h : Tally input output w [] ds)
    (ha : vm.after (.ofHandles input output ds₀) n ds = some (vm₂, s₂)) (hi : i < n)
    (ha₁ : vm.after (.ofHandles input output ds₀) i ds = some (vm₁, s)) :
    Supplied input w (vm₁, s) := by
  have hon₁ := onTape_after hon ha₁
  have hn : (vm₁.next (.ofHandles input output ds₀) s).1
      ≠ .error (.stream vm₁.ip .exhausted) := by
    intro hn
    -- Had it not been supplied, the program would have stopped there.
    have hstop : vm.StopsAfter (.ofHandles input output ds₀) i ds := by
      refine ⟨vm₁, s, ha₁, ?_⟩
      rw [hn]
      exact nofun
    obtain ⟨e, rfl, -⟩ := hstop.eq_add ha
    exact absurd hi (Nat.not_lt_of_le (Nat.le_add_right n e))
  exact (h.after hon ha₁).supplied_of_ne hon₁ hn

/-- **What is reached over `w` is reached over `w ++ x`**, by as many steps. -/
theorem after_longer (hne : input.place ≠ output.place) (hon : vm.tape.OnTape)
    (h : Tally input output w [] ds) (hagree : Devices.Agree input output w x ds ds')
    (ha : vm.after (.ofHandles input output ds₀) n ds = some (vm₁, s)) (ds₀' : Devices) :
    ∃ s', vm.after (.ofHandles input output ds₀') n ds' = some (vm₁, s')
      ∧ Devices.Agree input output w x s s' := by
  have hR : SameSoFar input output w x (vm, ds) (vm, ds') := ⟨hon, rfl, hagree⟩
  obtain ⟨⟨_, s'⟩, ha', -, rfl, hagree'⟩ := (lockstep_longer hne ds₀ ds₀').exists_after hR ha
    fun i hi _ hc => supplied_of_after hon h ha hi hc
  exact ⟨s', ha', hagree'⟩

-- ── What has been written ────────────────────────────────────────────────────────

theorem Tally.held_eq (h : Tally input output w past ds) :
    output.held ds = Demand.written past := by
  rw [Handle.held, h.given]

/-- What has been written stays. -/
theorem Tally.held_isPrefix (h : Tally input output w past s) (hon : vm.tape.OnTape)
    (ha : vm.after (.ofHandles input output ds₀) n s = some (vm₁, s₂)) :
    output.held s <+: output.held s₂ := by
  have hafter := h.after hon ha
  rw [h.held_eq, hafter.held_eq, Demand.written, Demand.written, List.filterMap_append]
  exact List.prefix_append _ _

/-- A run gets as far as its limit, or as the program does. -/
theorem le_steps_of_after {σ : Type} {ch : Channels σ} {s : σ} {c : Machine × σ}
    (ha : vm.reset.after ch m s = some c) (hm : m ≤ limit) : m ≤ (vm.run ch limit s).steps := by
  rw [run_eq_conclude, steps_conclude]
  by_cases ho : (vm.course ch limit s).outcome = .unfinished
  · rw [(after_of_course ho).1]
    exact hm
  · obtain ⟨r, s', -, hr, -, ha', hn⟩ := stop_of_course ho
    have hstop : vm.reset.StopsAfter ch (vm.course ch limit s).steps s := by
      refine ⟨_, _, ha', ?_⟩
      rw [hn]
      exact hr
    obtain ⟨e, he, -⟩ := hstop.eq_add ha
    rw [he]
    exact Nat.le_add_right m e

-- ── Runs ─────────────────────────────────────────────────────────────────────────

/-- What a run over `w` tells about the run over `w ++ x`. -/
structure Causal (input output : Handle) (w x : Array UInt8) (vm : Machine) (ds ds' : Devices) :
    Prop where
  /-- What is reached over `w` is reached over `w ++ x`, by as many steps, with the same output and
      the inputs read equally far. -/
  reached   : ∀ n vm₁ s, vm.reset.after (.ofHandles input output ds) n ds = some (vm₁, s) →
    ∃ s', vm.reset.after (.ofHandles input output ds') n ds' = some (vm₁, s')
      ∧ Devices.Agree input output w x s s'
  /-- The step from there has the same result and leaves the same, if it is no `input` that comes
      after all of `w` has been read. -/
  next_same : ∀ n vm₁ s s', vm.reset.after (.ofHandles input output ds) n ds = some (vm₁, s) →
    vm.reset.after (.ofHandles input output ds') n ds' = some (vm₁, s') →
    (vm₁.fetch = some (.operation .input) →
      (vm.reset.demands (.ofHandles input output ds) n ds).count .read < w.size) →
    let r  := vm₁.next (.ofHandles input output ds) s
    let r' := vm₁.next (.ofHandles input output ds') s'
    r'.1 = r.1 ∧ r'.2.1 = r.2.1 ∧ Devices.Agree input output w x r.2.2 r'.2.2
  /-- Over `w` such an `input` fails. -/
  exhausted : ∀ n vm₁ s, vm.reset.after (.ofHandles input output ds) n ds = some (vm₁, s) →
    vm₁.fetch = some (.operation .input) →
    (vm.reset.demands (.ofHandles input output ds) n ds).count .read = w.size →
    vm₁.next (.ofHandles input output ds) s = (.error (.stream vm₁.ip .exhausted), vm₁, s)
  /-- A run over `w` that does not end for want of input is the run over `w ++ x`. -/
  run_same  : ∀ limit, let r := vm.run (.ofHandles input output ds) limit ds
    let r' := vm.run (.ofHandles input output ds') limit ds'
    (∀ ip, r.outcome ≠ .failed (.stream ip .exhausted)) →
    r'.outcome = r.outcome ∧ r'.steps = r.steps ∧ r'.machine = r.machine
      ∧ Devices.Agree input output w x r.streams r'.streams
  /-- One that does is at an `input`, and over `w ++ x` the machine goes on from the same state and
      only adds to the output. -/
  run_goes_on : ∀ limit ip, let r := vm.run (.ofHandles input output ds) limit ds
    r.outcome = .failed (.stream ip .exhausted) →
    (r.machine.fetch = some (.operation .input) ∧ r.machine.ip = ip)
    ∧ (∃ s', vm.reset.after (.ofHandles input output ds') r.steps ds' = some (r.machine, s')
        ∧ Devices.Agree input output w x r.streams s')
    ∧ (∀ n vm₂ s₂, vm.reset.after (.ofHandles input output ds') (r.steps + n) ds'
        = some (vm₂, s₂) → output.held r.streams <+: output.held s₂)
    ∧ ∀ limit', r.steps ≤ limit' →
      output.held r.streams
        <+: output.held (vm.run (.ofHandles input output ds') limit' ds').streams

/-- A run over `w` was supplied all the way, if it does not end for want of input. -/
theorem supplied_of_run (h : Tally input output w [] ds)
    (ho : ∀ ip, (vm.run (.ofHandles input output ds₀) limit ds).outcome
      ≠ .failed (.stream ip .exhausted))
    (hi : i < limit) (ha : vm.reset.after (.ofHandles input output ds₀) i ds = some (vm₁, s)) :
    Supplied input w (vm₁, s) := by
  have hon₁ := onTape_after Tape.onTape_reset ha
  have hn : (vm₁.next (.ofHandles input output ds₀) s).1
      ≠ .error (.stream vm₁.ip .exhausted) := by
    intro hn
    have hstop : vm₁.next (.ofHandles input output ds₀) s
        = (.error (.stream vm₁.ip .exhausted), (vm₁.next (.ofHandles input output ds₀) s).2) :=
      Prod.ext hn rfl
    obtain ⟨hfailed, -⟩ := advanceFrom_of_stop ha hstop nofun hi
    exact ho vm₁.ip (outcome_run_of_course hfailed)
  exact (h.after Tape.onTape_reset ha).supplied_of_ne hon₁ hn

/-- A run that ends for want of input is at an `input`. -/
theorem fetch_of_run_exhausted {σ : Type} {ch : Channels σ} {s : σ}
    (h : (vm.run ch limit s).outcome = .failed (.stream ip .exhausted)) :
    (vm.run ch limit s).machine.fetch = some (.operation .input)
      ∧ (vm.run ch limit s).machine.ip = ip := by
  rw [run_eq_conclude] at h ⊢
  rw [machine_conclude]
  rcases outcome_conclude h with hfailed | ⟨-, flush, e, -, -, he⟩
  · obtain ⟨r, s', -, -, hr, ha, hn⟩ := stop_of_course (by rw [hfailed]; exact nofun)
    obtain rfl : r = .error (.stream ip .exhausted) :=
      Outcome.ofResult_eq_failed (hr.symm.trans hfailed)
    have hon := onTape_after Tape.onTape_reset ha
    exact fetch_of_exhausted hon (congrArg Prod.fst hn)
  · exact absurd he exhausted_ne_ofRaised

/-- **What a machine does with its input does not depend on what it has not read.** -/
theorem input_is_causal (input output : Handle) (w x : Array UInt8) (ds ds' : Devices)
    (vm : Machine) (hne : input.place ≠ output.place)
    (hin : ds[input.place]? = some (.bytes { contents := w }))
    (hout : ds[output.place]? = some (.bytes {}))
    (hin' : ds'[input.place]? = some (.bytes { contents := w ++ x }))
    (hout' : ds'[output.place]? = some (.bytes {})) : Causal input output w x vm ds ds' := by
  have hon : vm.reset.tape.OnTape := Tape.onTape_reset
  have htally := tally_nil hne hin hout
  have htally' := tally_nil hne hin' hout'
  have hagree := Devices.agree_of_buffers hin hout hin' hout'
  have hreached {n : Nat} {vm₁ : Machine} {s : Devices}
      (ha : vm.reset.after (.ofHandles input output ds) n ds = some (vm₁, s)) :
      ∃ s', vm.reset.after (.ofHandles input output ds') n ds' = some (vm₁, s')
        ∧ Devices.Agree input output w x s s' :=
    after_longer hne hon htally hagree ha ds'
  constructor
  · intro n vm₁ s ha
    exact hreached ha
  · intro n vm₁ s s' ha ha' hread
    obtain ⟨s₁, ha₁, hagree₁⟩ := hreached ha
    obtain rfl : s₁ = s' := congrArg Prod.snd (Option.some.inj (ha₁.symm.trans ha'))
    have hsupplied : Supplied input w (vm₁, s) := (htally.after hon ha).supplied_of_lt hread
    obtain ⟨hresult, hmachine, hstreams⟩ :=
      next_longer hne (onTape_after hon ha) hagree₁ hsupplied
    exact ⟨hresult.symm, hmachine.symm, hstreams⟩
  · intro n vm₁ s ha hf hread
    exact (htally.after hon ha).next_input_of_eq (onTape_after hon ha) hf hread
  · intro limit r r' ho
    have hR : SameSoFar input output w x (vm.reset, ds) (vm.reset, ds') := ⟨hon, rfl, hagree⟩
    have hrun : Run.Beside (SameSoFar input output w x) id 0 r r' := by
      refine (lockstep_longer hne ds ds').run (flushAlike_longer ds ds') hR ?_
      intro i hi c hc
      exact supplied_of_run htally ho hi hc
    obtain ⟨-, hmachine, hstreams⟩ := hrun.related
    exact ⟨hrun.outcome.trans (Outcome.mapFault_id _), hrun.steps, hmachine, hstreams⟩
  · intro limit ip r ho
    obtain ⟨s', ha', hagree'⟩ := hreached (htally.after_run vm limit)
    have hadds {n : Nat} {vm₂ : Machine} {s₂ : Devices}
        (ha₂ : vm.reset.after (.ofHandles input output ds') (r.steps + n) ds' = some (vm₂, s₂)) :
        output.held r.streams <+: output.held s₂ := by
      rw [after_add, ha'] at ha₂
      rw [← hagree'.held_eq]
      exact (htally'.after hon ha').held_isPrefix (onTape_after hon ha') ha₂
    refine ⟨fetch_of_run_exhausted ho, ⟨s', ha', hagree'⟩, ?_, ?_⟩
    · intro n vm₂ s₂ ha₂
      exact hadds ha₂
    · intro limit' hlimit
      obtain ⟨n, hn⟩ := Nat.exists_eq_add_of_le (le_steps_of_after ha' hlimit)
      let r' := vm.run (.ofHandles input output ds') limit' ds'
      have hafter : vm.reset.after (.ofHandles input output ds') r'.steps ds'
          = some (r'.machine, r'.streams) := htally'.after_run vm limit'
      rw [hn] at hafter
      exact hadds hafter

/-- A program that copies its input until a byte is zero, over one byte and over two. -/
theorem copying_is_causal :
    let vm := (fresh 1 Nat.one_pos false).load
      (.ofOperations [.increment, .loopForward, .input, .output, .loopBack])
    let ds : Devices  := #[.bytes { contents := #[7] }, .bytes {}]
    let ds' : Devices := #[.bytes { contents := #[7] ++ #[0] }, .bytes {}]
    ((0 : Nat) ≠ 1 ∧ ds[0]? = some (.bytes { contents := #[7] }) ∧ ds[1]? = some (.bytes {})
      ∧ ds'[0]? = some (.bytes { contents := #[7] ++ #[0] }) ∧ ds'[1]? = some (.bytes {}))
    ∧ Causal (.direct 0) (.direct 1) #[7] #[0] vm ds ds' :=
  ⟨⟨by decide, rfl, rfl, rfl, rfl⟩,
    input_is_causal _ _ _ _ _ _ _ (by decide) rfl rfl rfl rfl⟩

end Machine

end TapeMachine
