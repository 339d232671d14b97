import TapeMachine.Proofs.Machine.Reachable
import TapeMachine.Proofs.Machine.Stutter

/-!
# Progress

There is no limit on the steps of a machine, and a program may run for ever. Yet only one thing
takes it back in its program, a `loopBack` that repeats its loop. Every other operation leads
further on, be the program balanced or not: a search to the right finds a bracket behind the place
where it begins, and a search to the left one in front of it. **So the jumps back are what an
execution is paid with:** each of them buys no more operations than the program has
(`ip_add_le_of_after`), and a run with few of them is soon over (`steps_bounded_by_jumps_back`).

* `Move.lt_of_not_repeats`, `Move.le_of_repeats` — where one move leads.
* `Machine.jumpsBack` — how many operations of an execution repeat a loop.
-/

namespace TapeMachine.Machine

variable {σ : Type} {ch : Channels σ} {vm vm' : Machine} {s s' : σ} {b k m n limit : Nat}
  {t : Tape}

-- ── Jumps back ───────────────────────────────────────────────────────────────────

/-- Whether the operation to execute next repeats a loop. -/
def repeats (vm : Machine) : Bool :=
  match vm.fetch, vm.tape.current with
  | some (.operation .loopBack), .ok c => c != 0
  | _, _                               => false

theorem repeats_iff : vm.repeats = true
    ↔ vm.fetch = some .closing ∧ ∃ c, vm.tape.current = .ok c ∧ c ≠ 0 := by
  rw [repeats]
  constructor
  · intro h
    split at h
    · next c hf hc => exact ⟨hf, c, hc, bne_iff_ne.mp h⟩
    · exact nomatch h
  · rintro ⟨hf, c, hc, hne⟩
    rw [hf, hc]
    exact bne_iff_ne.mpr hne

/-- How many of the operations that at most `n` steps execute repeat a loop. -/
def jumpsBack (ch : Channels σ) : Nat → Machine → σ → Nat
  | 0, _, _      => 0
  | n + 1, vm, s =>
    match vm.next ch s with
    | (.ok true, vm', s') => (if vm.repeats then 1 else 0) + jumpsBack ch n vm' s'
    | _                   => 0

theorem jumpsBack_succ_of_ok (h : vm.next ch s = (.ok true, vm', s')) (n : Nat) :
    vm.jumpsBack ch (n + 1) s = (if vm.repeats then 1 else 0) + vm'.jumpsBack ch n s' := by
  rw [jumpsBack, h]

theorem jumpsBack_succ_of_ne (h : (vm.next ch s).1 ≠ .ok true) (n : Nat) :
    vm.jumpsBack ch (n + 1) s = 0 := by
  rw [jumpsBack]
  split
  · next vm' s' hn => exact absurd (congrArg Prod.fst hn) h
  · rfl

/-- More steps take no jump back away. -/
theorem jumpsBack_mono (hmn : m ≤ n) (vm : Machine) (s : σ) :
    vm.jumpsBack ch m s ≤ vm.jumpsBack ch n s := by
  induction m generalizing n vm s with
  | zero => exact Nat.zero_le _
  | succ m ih =>
      obtain ⟨n, rfl⟩ := Nat.exists_eq_add_of_le' (Nat.le_trans (Nat.le_add_left 1 m) hmn)
      rcases next_cases ch vm s with ⟨vm', s', hn⟩ | hn
      · have hrest := ih (Nat.le_of_succ_le_succ hmn) vm' s'
        rw [jumpsBack_succ_of_ok hn, jumpsBack_succ_of_ok hn]
        omega
      · rw [jumpsBack_succ_of_ne hn]
        exact Nat.zero_le _

-- ── One step ─────────────────────────────────────────────────────────────────────

/-- A move that repeats no loop leads further on. -/
theorem Move.lt_of_not_repeats (h : vm.Move k t) (hr : vm.repeats = false) : vm.ip < k := by
  cases h with
  | performed => exact Nat.lt_succ_self _
  | entered => exact Nat.lt_succ_self _
  | skipped j hf hc hj =>
      have hm := (Program.partnerRight_eq_some_iff (getElem?_of_fetch hf)).mp hj
      exact Nat.lt_succ_of_lt hm.lt
  | left => exact Nat.lt_succ_self _
  | repeated c i hf hc hne =>
      have hrepeats : vm.repeats = true := repeats_iff.mpr ⟨hf, c, hc, hne⟩
      exact nomatch hr.symm.trans hrepeats

/-- A move that repeats a loop leads behind the bracket that opens it, in an empty loop to where the
    move began. -/
theorem Move.le_of_repeats (h : vm.Move k t) (hr : vm.repeats = true) : 1 ≤ k ∧ k ≤ vm.ip := by
  obtain ⟨hclosing, d, hd, hne⟩ := repeats_iff.mp hr
  cases h with
  | performed op t hf =>
      have hop := Element.operation.inj (Option.some.inj (hf.symm.trans hclosing))
      exact absurd hop op.toOperation_ne.2
  | entered c hf => exact nomatch hf.symm.trans hclosing
  | skipped j hf => exact nomatch hf.symm.trans hclosing
  | left hf hc => exact absurd (Except.ok.inj (hd.symm.trans hc)) hne
  | repeated c i hf hc hc0 hi =>
      have hm := (Program.partnerLeft_eq_some_iff (getElem?_of_fetch hf)).mp hi
      exact ⟨Nat.succ_pos i, hm.lt⟩

/-- What a step gains: a place, or so much as a jump back can cost. -/
theorem ip_lt_of_next (h : vm.next ch s = (.ok true, vm', s')) :
    vm.ip < vm'.ip + (if vm.repeats then 1 else 0) * vm.program.size := by
  obtain ⟨k, t, hmove, rfl⟩ := move_of_next h
  rw [moved_ip]
  cases hr : vm.repeats with
  | false =>
      have hlt := hmove.lt_of_not_repeats hr
      rw [if_neg Bool.false_ne_true, Nat.zero_mul]
      exact hlt
  | true =>
      obtain ⟨hpos, -⟩ := hmove.le_of_repeats hr
      have hin := succ_le_of_fetch (repeats_iff.mp hr).1
      rw [if_pos rfl, Nat.one_mul]
      omega

-- ── Many steps ───────────────────────────────────────────────────────────────────

/-- **Each operation gains a place, or is paid with a jump back.** -/
theorem ip_add_le_of_after (ha : vm.after ch n s = some (vm', s')) :
    vm.ip + n ≤ vm'.ip + vm.jumpsBack ch n s * vm.program.size := by
  induction n generalizing vm s with
  | zero =>
      obtain ⟨rfl, rfl⟩ := Prod.mk.inj (Option.some.inj ha)
      exact Nat.le_add_right _ _
  | succ n ih =>
      rcases next_cases ch vm s with ⟨vm₁, s₁, hn⟩ | hn
      · have hstep := ip_lt_of_next hn
        have hprogram : vm₁.program = vm.program := program_after (after_succ_of_ok hn 0)
        rw [after_succ_of_ok hn] at ha
        have hrest := ih ha
        rw [hprogram] at hrest
        rw [jumpsBack_succ_of_ok hn, Nat.add_mul]
        omega
      · rw [after_succ_of_ne hn] at ha
        exact nomatch ha

theorem ip_le_of_after (h : vm.ip ≤ vm.program.size) (ha : vm.after ch n s = some (vm', s')) :
    vm'.ip ≤ vm.program.size := by
  have hkept : vm'.ip ≤ vm'.program.size :=
    after_invariant (P := fun vm => vm.ip ≤ vm.program.size)
      (fun _ s hvm => ip_le_next hvm ch s) h ha
  rw [program_after ha] at hkept
  exact hkept

/-- Between two jumps back, and before the first and behind the last, no more operations are
    executed than the program has. -/
theorem le_of_after (ha : vm.after ch n s = some (vm', s')) :
    n ≤ (vm.jumpsBack ch n s + 1) * vm.program.size := by
  by_cases hip : vm.ip ≤ vm.program.size
  · have hpaid := ip_add_le_of_after ha
    have hle := ip_le_of_after hip ha
    rw [Nat.add_mul]
    omega
  · -- behind the end there is nothing to execute
    cases n with
    | zero => exact Nat.zero_le _
    | succ n =>
        have hf : vm.fetch = none := fetch_of_size_le (Nat.le_of_not_le hip)
        have hne : (vm.next ch s).1 ≠ .ok true := by
          rw [next_of_fetch_eq_none hf]
          exact nofun
        rw [after_succ_of_ne hne] at ha
        exact nomatch ha

/-- Few jumps back are made in few operations. -/
theorem le_of_jumpsBack_le (ha : vm.after ch n s = some (vm', s')) (hb : vm.jumpsBack ch n s ≤ b) :
    n ≤ (b + 1) * vm.program.size :=
  Nat.le_trans (le_of_after ha) (Nat.mul_le_mul_right _ (Nat.succ_le_succ hb))

-- ── What jumps back are worth ────────────────────────────────────────────────────

/-- How far the jumps back of a machine take it. -/
structure PaysByJumps (ch : Channels σ) (vm : Machine) (s : σ) : Prop where
  /-- An operation that repeats no loop leads further on, at most to the end of the program. -/
  forward : ∀ vm' s', vm.next ch s = (.ok true, vm', s') → vm.repeats = false →
    vm.ip < vm'.ip ∧ vm'.ip ≤ vm.program.size
  /-- An operation that repeats a loop leads no further than to itself, and not to the first place. -/
  back    : ∀ vm' s', vm.next ch s = (.ok true, vm', s') → vm.repeats = true →
    1 ≤ vm'.ip ∧ vm'.ip ≤ vm.ip
  bounded : ∀ n vm' s', vm.after ch n s = some (vm', s') →
    n ≤ (vm.jumpsBack ch n s + 1) * vm.program.size
  /-- With no more than `b` jumps back the program ends or fails. -/
  stops   : ∀ b, (∀ n, vm.jumpsBack ch n s ≤ b) →
    ∃ m, m ≤ (b + 1) * vm.program.size ∧ vm.StopsAfter ch m s
  /-- So does a whole run, unless its limit is below what its jumps back are worth. -/
  run     : ∀ b limit, vm.reset.jumpsBack ch limit s ≤ b →
    (vm.run ch limit s).steps ≤ (b + 1) * vm.program.size
    ∧ ((b + 1) * vm.program.size < limit → (vm.run ch limit s).outcome ≠ .unfinished)

theorem stops_of_jumpsBack_le (hb : vm.jumpsBack ch ((b + 1) * vm.program.size + 1) s ≤ b) :
    ∃ m, m ≤ (b + 1) * vm.program.size ∧ vm.StopsAfter ch m s := by
  rcases stops_or_goes_on ch ((b + 1) * vm.program.size + 1) vm s with ⟨m, hm, hstop⟩ | ⟨vm', s', ha⟩
  · exact ⟨m, Nat.le_of_lt_succ hm, hstop⟩
  · exact absurd (le_of_jumpsBack_le ha hb) (Nat.not_succ_le_self _)

/-- The operations of a run lead to where it got. -/
theorem exists_after_of_course (ch : Channels σ) (vm : Machine) (limit : Nat) (s : σ) :
    (vm.course ch limit s).steps ≤ limit
      ∧ ∃ c, vm.reset.after ch (vm.course ch limit s).steps s = some c := by
  by_cases ho : (vm.course ch limit s).outcome = .unfinished
  · obtain ⟨hsteps, ha⟩ := after_of_course ho
    rw [hsteps]
    exact ⟨Nat.le_refl limit, _, ha⟩
  · obtain ⟨r, s', hlt, -, -, ha, -⟩ := stop_of_course ho
    exact ⟨Nat.le_of_lt hlt, _, ha⟩

/-- **Only a repeated loop goes back, and so the jumps back bound every execution.** -/
theorem steps_bounded_by_jumps_back (ch : Channels σ) (vm : Machine) (s : σ) :
    PaysByJumps ch vm s := by
  constructor
  · intro vm' s' hn hr
    obtain ⟨k, t, hmove, rfl⟩ := move_of_next hn
    exact ⟨hmove.lt_of_not_repeats hr, hmove.le_size⟩
  · intro vm' s' hn hr
    obtain ⟨k, t, hmove, rfl⟩ := move_of_next hn
    exact hmove.le_of_repeats hr
  · intro n vm' s' ha
    exact le_of_after ha
  · intro b hb
    exact stops_of_jumpsBack_le (hb _)
  · intro b limit hb
    obtain ⟨hle, c, ha⟩ := exists_after_of_course ch vm limit s
    have hsteps : (vm.run ch limit s).steps = (vm.course ch limit s).steps := steps_conclude _
    constructor
    · rw [hsteps]
      have hjumps := Nat.le_trans (jumpsBack_mono hle vm.reset s) hb
      have hbound : _ ≤ (b + 1) * vm.reset.program.size := le_of_jumpsBack_le ha hjumps
      exact hbound
    · intro hlimit ho
      obtain ⟨-, ha'⟩ := after_of_course (outcome_run_eq_unfinished_iff.mp ho)
      have hbound : limit ≤ (b + 1) * vm.reset.program.size := le_of_jumpsBack_le ha' hb
      exact Nat.not_lt.mpr hbound hlimit

end TapeMachine.Machine
