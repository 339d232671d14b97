import TapeMachine.Proofs.Machine.Move

/-!
# The course of a run

A run is many steps, and here is what they come to. `Machine.after n` are machine and streams after
exactly `n` executed operations; `Machine.course` is a run as far as it goes before the output is
flushed.

* `after_add` — a longer way is a shorter one and the rest of it.
* `StopsAfter` — the program ends or fails after so many operations, which is one number at most
  (`StopsAfter.eq_add`), so **a limit that is large enough makes no difference**.
* `advanceFrom_of_after`, `advanceFrom_of_stop` — what a limited run is, in either case.
* `advanceFrom_invariant` — what every step keeps, a run keeps.
-/

namespace TapeMachine

/-- How far a run got whose last step had a given result. -/
def Outcome.ofResult : Except Fault Bool → Outcome
  | .ok true  => .unfinished
  | .ok false => .finished
  | .error f  => .failed f

/-- A last step that is followed by no other and has not failed ends the program. -/
theorem Outcome.ofResult_eq_finished {r : Except Fault Bool} (h : ofResult r = .finished) :
    r = .ok false := by
  rcases r with f | _ | _
  · exact nomatch h
  · rfl
  · exact nomatch h

/-- A last step that fails is the failure of its run. -/
theorem Outcome.ofResult_eq_failed {r : Except Fault Bool} {f : Fault} (h : ofResult r = .failed f) :
    r = .error f := by
  rcases r with g | _ | _
  · rw [Outcome.failed.inj h]
  · exact nomatch h
  · exact nomatch h

namespace Machine

variable {σ : Type} {ch : Channels σ} {vm vm' : Machine} {s s' : σ} {m n k : Nat}
  {events : Array Event}

-- ── A number of operations ───────────────────────────────────────────────────────

/-- Machine and streams after exactly `n` executed operations, if the program goes on for so
    long. -/
def after (ch : Channels σ) : Nat → Machine → σ → Option (Machine × σ)
  | 0, vm, s     => some (vm, s)
  | n + 1, vm, s =>
    match vm.next ch s with
    | (.ok true, vm, s) => after ch n vm s
    | _                 => none

@[simp] theorem after_zero : vm.after ch 0 s = some (vm, s) := rfl

theorem after_succ_of_ok (h : vm.next ch s = (.ok true, vm', s')) (n : Nat) :
    vm.after ch (n + 1) s = vm'.after ch n s' := by
  rw [after, h]

theorem after_succ_of_ne (h : (vm.next ch s).1 ≠ .ok true) (n : Nat) :
    vm.after ch (n + 1) s = none := by
  rw [after]
  split
  · next vm' s' hn => exact absurd (congrArg Prod.fst hn) h
  · rfl

theorem next_cases (ch : Channels σ) (vm : Machine) (s : σ) :
    (∃ vm' s', vm.next ch s = (.ok true, vm', s')) ∨ (vm.next ch s).1 ≠ .ok true := by
  by_cases h : (vm.next ch s).1 = .ok true
  · exact Or.inl ⟨_, _, Prod.ext h rfl⟩
  · exact Or.inr h

/-- A longer way is a shorter one and the rest of it. -/
theorem after_add (ch : Channels σ) (m n : Nat) (vm : Machine) (s : σ) :
    vm.after ch (m + n) s = (vm.after ch m s).bind fun c => c.1.after ch n c.2 := by
  induction m generalizing vm s with
  | zero =>
      rw [Nat.zero_add]
      rfl
  | succ m ih =>
      rw [Nat.succ_add]
      rcases next_cases ch vm s with ⟨vm', s', hn⟩ | hn
      · rw [after_succ_of_ok hn, after_succ_of_ok hn]
        exact ih vm' s'
      · rw [after_succ_of_ne hn, after_succ_of_ne hn]
        rfl

theorem after_trans {vm₁ vm₂ : Machine} {s₁ s₂ : σ} (h₁ : vm.after ch m s = some (vm₁, s₁))
    (h₂ : vm₁.after ch n s₁ = some (vm₂, s₂)) : vm.after ch (m + n) s = some (vm₂, s₂) := by
  rw [after_add, h₁]
  exact h₂

/-- What every step keeps is kept all the way. -/
theorem after_invariant {P : Machine → Prop} (hP : ∀ vm s, P vm → P (vm.next ch s).2.1) (h : P vm)
    (ha : vm.after ch n s = some (vm', s')) : P vm' := by
  induction n generalizing vm s with
  | zero =>
      obtain ⟨rfl, rfl⟩ := Prod.mk.inj (Option.some.inj ha)
      exact h
  | succ n ih =>
      rcases next_cases ch vm s with ⟨vm₁, s₁, hn⟩ | hn
      · have hnext := hP vm s h
        rw [hn] at hnext
        rw [after_succ_of_ok hn] at ha
        exact ih hnext ha
      · rw [after_succ_of_ne hn] at ha
        exact nomatch ha

theorem onTape_after (hon : vm.tape.OnTape) (ha : vm.after ch n s = some (vm', s')) :
    vm'.tape.OnTape :=
  after_invariant (P := fun vm => vm.tape.OnTape) (fun _ s hvm => onTape_next hvm ch s) hon ha

theorem program_after (ha : vm.after ch n s = some (vm', s')) : vm'.program = vm.program :=
  after_invariant (P := fun vm₁ => vm₁.program = vm.program)
    (fun vm₁ s hvm => (program_next ch vm₁ s).trans hvm) rfl ha

-- ── Where it stops ───────────────────────────────────────────────────────────────

/-- The program ends or fails after exactly `m` executed operations. -/
def StopsAfter (ch : Channels σ) (m : Nat) (vm : Machine) (s : σ) : Prop :=
  ∃ vm' s', vm.after ch m s = some (vm', s') ∧ (vm'.next ch s').1 ≠ .ok true

/-- Every program stops within `n` operations or executes them all. -/
theorem stops_or_goes_on (ch : Channels σ) (n : Nat) (vm : Machine) (s : σ) :
    (∃ m, m < n ∧ vm.StopsAfter ch m s) ∨ ∃ vm' s', vm.after ch n s = some (vm', s') := by
  induction n generalizing vm s with
  | zero => exact Or.inr ⟨vm, s, rfl⟩
  | succ n ih =>
      rcases next_cases ch vm s with ⟨vm', s', hn⟩ | hn
      · rcases ih vm' s' with ⟨m, hm, hs⟩ | ⟨vm'', s'', ha⟩
        · obtain ⟨vm'', s'', ha, hstop⟩ := hs
          refine Or.inl ⟨m + 1, Nat.succ_lt_succ hm, vm'', s'', ?_, hstop⟩
          rw [after_succ_of_ok hn]
          exact ha
        · refine Or.inr ⟨vm'', s'', ?_⟩
          rw [after_succ_of_ok hn]
          exact ha
      · exact Or.inl ⟨0, Nat.succ_pos n, vm, s, rfl, hn⟩

/-- A way from the start does not lead past the place where the program stops, and from its end the
    rest of the operations is left. -/
theorem StopsAfter.eq_add (h : vm.StopsAfter ch m s) (ha : vm.after ch n s = some (vm', s')) :
    ∃ e, m = n + e ∧ vm'.StopsAfter ch e s' := by
  obtain ⟨vm₁, s₁, h₁, hstop⟩ := h
  rcases Nat.lt_or_ge m n with hlt | hge
  · obtain ⟨e, rfl⟩ := Nat.exists_eq_add_of_lt hlt
    rw [Nat.add_assoc, after_add, h₁, Option.bind_some, after_succ_of_ne hstop] at ha
    exact nomatch ha
  · obtain ⟨e, rfl⟩ := Nat.exists_eq_add_of_le hge
    rw [after_add, ha] at h₁
    exact ⟨e, rfl, vm₁, s₁, h₁, hstop⟩

/-- An operation that is executed counts for one. -/
theorem StopsAfter.of_next (h : vm.StopsAfter ch m s) (hn : vm.next ch s = (.ok true, vm', s')) :
    ∃ e, m = e + 1 ∧ vm'.StopsAfter ch e s' := by
  obtain ⟨e, rfl, he⟩ := h.eq_add (after_succ_of_ok hn 0)
  exact ⟨e, Nat.add_comm .., he⟩

-- ── Limited runs ─────────────────────────────────────────────────────────────────

theorem advanceFrom_succ :
    advanceFrom ch (n + 1) k events vm s = match vm.next ch s with
      | (.ok true, vm', s')  =>
        advanceFrom ch n (k + 1) (Event.log events (vm.step ch s).event?) vm' s'
      | (.ok false, vm', s') =>
        ⟨.finished, vm', s', k, Event.log events (vm.step ch s).event?⟩
      | (.error f, vm', s')  =>
        ⟨.failed f, vm', s', k, Event.log events (vm.step ch s).event?⟩ := by
  rw [next, advanceFrom]
  rcases vm.step ch s with ⟨_ | _ | _, _, _, _⟩
  · rfl
  · rfl
  · rfl

theorem advanceFrom_succ_of_ok (h : vm.next ch s = (.ok true, vm', s')) :
    advanceFrom ch (n + 1) k events vm s
      = advanceFrom ch n (k + 1) (Event.log events (vm.step ch s).event?) vm' s' := by
  rw [advanceFrom_succ, h]

/-- With a greater limit a run that has not met its own is the same. -/
theorem advanceFrom_add (h : (advanceFrom ch n k events vm s).outcome ≠ .unfinished) (m : Nat) :
    advanceFrom ch (n + m) k events vm s = advanceFrom ch n k events vm s := by
  induction n generalizing k events vm s with
  | zero => exact absurd rfl h
  | succ n ih =>
      rw [Nat.add_right_comm, advanceFrom_succ, advanceFrom_succ]
      rw [advanceFrom_succ] at h
      rcases hn : vm.next ch s with ⟨_ | _ | _, vm', s'⟩
      · rfl
      · rfl
      · rw [hn] at h
        exact ih h

/-- A run that meets its limit has executed as many operations. -/
theorem advanceFrom_of_after (ha : vm.after ch n s = some (vm', s')) :
    (advanceFrom ch n k events vm s).outcome = .unfinished
      ∧ (advanceFrom ch n k events vm s).machine = vm'
      ∧ (advanceFrom ch n k events vm s).streams = s'
      ∧ (advanceFrom ch n k events vm s).steps = k + n := by
  induction n generalizing k events vm s with
  | zero =>
      obtain ⟨rfl, rfl⟩ := Prod.mk.inj (Option.some.inj ha)
      exact ⟨rfl, rfl, rfl, rfl⟩
  | succ n ih =>
      rcases next_cases ch vm s with ⟨vm₁, s₁, hn⟩ | hn
      · rw [after_succ_of_ok hn] at ha
        rw [advanceFrom_succ_of_ok hn, show k + (n + 1) = k + 1 + n by omega]
        exact ih ha
      · rw [after_succ_of_ne hn] at ha
        exact nomatch ha

/-- A run is its first steps and the run from there on. -/
theorem advanceFrom_add_of_after (ha : vm.after ch m s = some (vm', s')) (n k : Nat)
    (events : Array Event) : ∃ events', advanceFrom ch (m + n) k events vm s
      = advanceFrom ch n (k + m) events' vm' s' := by
  induction m generalizing k events vm s with
  | zero =>
      obtain ⟨rfl, rfl⟩ := Prod.mk.inj (Option.some.inj ha)
      rw [Nat.zero_add]
      exact ⟨events, rfl⟩
  | succ m ih =>
      rcases next_cases ch vm s with ⟨vm₁, s₁, hn⟩ | hn
      · rw [after_succ_of_ok hn] at ha
        rw [Nat.succ_add, advanceFrom_succ_of_ok hn, show k + (m + 1) = k + 1 + m by omega]
        exact ih ha _ _
      · rw [after_succ_of_ne hn] at ha
        exact nomatch ha

/-- A run that stops before its limit ends as its last step does. -/
theorem advanceFrom_of_stop {r : Except Fault Bool} {vm'' : Machine} {s'' : σ}
    (ha : vm.after ch m s = some (vm', s')) (hstop : vm'.next ch s' = (r, vm'', s''))
    (hr : r ≠ .ok true) (hm : m < n) :
    (advanceFrom ch n k events vm s).outcome = .ofResult r
      ∧ (advanceFrom ch n k events vm s).machine = vm''
      ∧ (advanceFrom ch n k events vm s).streams = s''
      ∧ (advanceFrom ch n k events vm s).steps = k + m := by
  obtain ⟨n, rfl⟩ := Nat.exists_eq_add_of_lt hm
  induction m generalizing k events vm s with
  | zero =>
      obtain ⟨rfl, rfl⟩ := Prod.mk.inj (Option.some.inj ha)
      rw [advanceFrom_succ, hstop]
      rcases r with f | _ | _
      · exact ⟨rfl, rfl, rfl, rfl⟩
      · exact ⟨rfl, rfl, rfl, rfl⟩
      · exact absurd rfl hr
  | succ m ih =>
      rcases next_cases ch vm s with ⟨vm₁, s₁, hn⟩ | hn
      · rw [after_succ_of_ok hn] at ha
        rw [show m + 1 + n + 1 = m + n + 1 + 1 by omega, advanceFrom_succ_of_ok hn,
          show k + (m + 1) = k + 1 + m by omega]
        exact ih ha (by omega)
      · rw [after_succ_of_ne hn] at ha
        exact nomatch ha

/-- What every step keeps, a run keeps. -/
theorem advanceFrom_invariant {P : Machine → Prop}
    (hP : ∀ vm s, P vm → P (vm.next ch s).2.1) (h : P vm) :
    P (advanceFrom ch n k events vm s).machine := by
  induction n generalizing k events vm s with
  | zero => exact h
  | succ n ih =>
      have hnext := hP vm s h
      rw [advanceFrom_succ]
      rcases hn : vm.next ch s with ⟨_ | _ | _, vm', s'⟩
      · rw [hn] at hnext
        exact hnext
      · rw [hn] at hnext
        exact hnext
      · rw [hn] at hnext
        exact ih hnext

-- ── Whole runs ───────────────────────────────────────────────────────────────────

/-- A run of at most `limit` steps before its output is flushed. -/
def course (ch : Channels σ) (limit : Nat) (vm : Machine) (s : σ) : Run σ :=
  advanceFrom ch limit 0 #[.started vm.reset.program.size vm.reset.tape.size] vm.reset s

/-- A run is its course and what follows the last step. -/
theorem run_eq_conclude (limit : Nat) : vm.run ch limit s = conclude ch (vm.course ch limit s) :=
  rfl

theorem program_course (limit : Nat) : (vm.course ch limit s).machine.program = vm.program :=
  advanceFrom_invariant (P := fun vm' => vm'.program = vm.program)
    (fun vm' s h => (program_next ch vm' s).trans h) rfl

/-- A run that has met its limit has executed as many operations. -/
theorem after_of_course {limit : Nat} (h : (vm.course ch limit s).outcome = .unfinished) :
    (vm.course ch limit s).steps = limit ∧ vm.reset.after ch limit s
      = some ((vm.course ch limit s).machine, (vm.course ch limit s).streams) := by
  rcases stops_or_goes_on ch limit vm.reset s with ⟨m, hm, vm', s', ha, hstop⟩ | ⟨vm', s', ha⟩
  · rcases hn : vm'.next ch s' with ⟨r, vm'', s''⟩
    rw [hn] at hstop
    obtain ⟨ho, -⟩ := advanceFrom_of_stop ha hn hstop hm
    rcases r with f | _ | _
    · exact nomatch ho.symm.trans h
    · exact nomatch ho.symm.trans h
    · exact absurd rfl hstop
  · obtain ⟨-, hm, hs, hk⟩ := advanceFrom_of_after ha
    refine ⟨hk.trans (Nat.zero_add limit), ?_⟩
    rw [course, hm, hs]
    exact ha

/-- A run that has stopped has come to a machine whose step executes nothing, and ends as that step
    does. -/
theorem stop_of_course {limit : Nat} (h : (vm.course ch limit s).outcome ≠ .unfinished) :
    ∃ r s', (vm.course ch limit s).steps < limit ∧ r ≠ .ok true
      ∧ (vm.course ch limit s).outcome = .ofResult r
      ∧ vm.reset.after ch (vm.course ch limit s).steps s
          = some ((vm.course ch limit s).machine, s')
      ∧ (vm.course ch limit s).machine.next ch s'
          = (r, (vm.course ch limit s).machine, (vm.course ch limit s).streams) := by
  rcases stops_or_goes_on ch limit vm.reset s with ⟨m, hm, vm', s', ha, hstop⟩ | ⟨vm', s', ha⟩
  · rcases hn : vm'.next ch s' with ⟨r, vm'', s''⟩
    rw [hn] at hstop
    obtain rfl : vm'' = vm' := by
      have hstop' : (vm'.next ch s').1 ≠ .ok true := by
        rw [hn]
        exact hstop
      have hsame := machine_next_of_ne hstop'
      rw [hn] at hsame
      exact hsame
    obtain ⟨ho, hmachine, hstreams, hk⟩ := advanceFrom_of_stop ha hn hstop hm
    refine ⟨r, s', ?_, hstop, ho, ?_, ?_⟩
    · rw [course, hk, Nat.zero_add]
      exact hm
    · rw [course, hk, hmachine, Nat.zero_add]
      exact ha
    · rw [course, hmachine, hstreams]
      exact hn
  · exact absurd (advanceFrom_of_after ha).1 h

/-- A run that comes to a step that executes nothing ends as that step does. -/
theorem course_of_stop {r : Except Fault Bool} {vm'' : Machine} {s'' : σ} {limit : Nat}
    (ha : vm.reset.after ch m s = some (vm', s')) (hstop : vm'.next ch s' = (r, vm'', s''))
    (hr : r ≠ .ok true) (hm : m < limit) :
    (vm.course ch limit s).outcome = .ofResult r ∧ (vm.course ch limit s).machine = vm''
      ∧ (vm.course ch limit s).streams = s'' ∧ (vm.course ch limit s).steps = m := by
  obtain ⟨ho, hmachine, hs, hk⟩ := advanceFrom_of_stop (k := 0) ha hstop hr hm
  exact ⟨ho, hmachine, hs, hk.trans (Nat.zero_add m)⟩

/-- A run that has not met its limit has stopped. -/
theorem stopsAfter_of_course {limit : Nat} (h : (vm.course ch limit s).outcome ≠ .unfinished) :
    ∃ m, vm.reset.StopsAfter ch m s := by
  obtain ⟨r, s', -, hr, -, ha, hn⟩ := stop_of_course h
  refine ⟨_, _, s', ha, ?_⟩
  rw [hn]
  exact hr

/-- Runs that have not met their limits are the same. -/
theorem course_eq_of_limits {l l' : Nat} (h : (vm.course ch l s).outcome ≠ .unfinished)
    (h' : (vm.course ch l' s).outcome ≠ .unfinished) : vm.course ch l s = vm.course ch l' s := by
  rcases Nat.le_total l l' with hle | hle
  · obtain ⟨m, rfl⟩ := Nat.exists_eq_add_of_le hle
    exact (advanceFrom_add h m).symm
  · obtain ⟨m, rfl⟩ := Nat.exists_eq_add_of_le hle
    exact advanceFrom_add h' m

@[simp] theorem machine_conclude (r : Run σ) : (conclude ch r).machine = r.machine := by
  rw [conclude]
  split
  · split
    · rfl
    · rfl
  · rfl
  · rfl

@[simp] theorem steps_conclude (r : Run σ) : (conclude ch r).steps = r.steps := by
  rw [conclude]
  split
  · split
    · rfl
    · rfl
  · rfl
  · rfl

/-- What failed before its end has failed. -/
theorem outcome_run_of_course {limit : Nat} {f : Fault}
    (h : (vm.course ch limit s).outcome = .failed f) : (vm.run ch limit s).outcome = .failed f := by
  rw [run_eq_conclude, conclude, h]

/-- What follows the last step fails only by an error of the flush at the end of the program. -/
theorem outcome_conclude {r : Run σ} {f : Fault} (h : (conclude ch r).outcome = .failed f) :
    r.outcome = .failed f ∨ (r.outcome = .finished ∧ ∃ flush e, ch.flush? = some flush
      ∧ (flush r.streams).1 = .error e ∧ f = .ofRaised r.machine.ip e) := by
  rw [conclude] at h
  split at h
  · next ho =>
      split at h
      · exact nomatch ho.symm.trans h
      · next g s' hg =>
          obtain rfl := Outcome.failed.inj h
          rw [flush] at hg
          split at hg
          · exact nomatch hg
          · next flush hflush =>
              split at hg
              · exact nomatch hg
              · next e s'' he =>
                  obtain ⟨hg, -⟩ := Prod.mk.inj hg
                  exact Or.inr ⟨ho, flush, e, hflush, congrArg Prod.fst he,
                    (Except.error.inj hg).symm⟩
  · exact Or.inl h
  · exact Or.inl h

end Machine

end TapeMachine
