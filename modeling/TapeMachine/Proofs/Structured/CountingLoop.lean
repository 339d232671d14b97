import TapeMachine.Machine.Demand
import TapeMachine.Proofs.Bracket.Fragment
import TapeMachine.Proofs.Structured.Simulation
import TapeMachine.Proofs.Tape.Shifted

/-!
# Loops that count

A loop with a straight line for its body, which brings the pointer back to where it was. Each round
then adds the same to every cell, so after `k` rounds there is `k` times as much more in each, and
**the loop is over as soon as that makes the current cell zero** (`counting_loop_effect`). The
simplest one takes one from the current cell in each round, and so clears it (`clearing_loop`).

* `after_strokes` — inside the body the machine goes from stroke to stroke.
* `after_round` — one round more, up to the closing bracket.
* `after_rounds` — as many rounds as the current cell lets it make, and the loop begun again.
-/

namespace TapeMachine

namespace Stroke

variable {xs : List Stroke}

@[simp] theorem length_row (xs : List Stroke) : (row xs).length = xs.length := by
  induction xs with
  | nil => rfl
  | cons x xs ih => rw [row, Block.length, ih, List.length_cons]

@[simp] theorem flatten_row (xs : List Stroke) : (row xs).flatten = xs.map toOperation := by
  induction xs with
  | nil => rfl
  | cons x xs ih =>
      rw [row, Block.flatten, ih]
      rfl

/-- A loop around a row, as the operations that the machine executes. -/
theorem holds_loop {p : Program} {i : Nat} (h : Program.Fragment
    (.ofOperations (.loopForward :: xs.map toOperation ++ [.loopBack])) p i) :
    p.Holds i (.loop (row xs) .done) := by
  have hflat : (Block.loop (row xs) .done).flatten
      = .loopForward :: xs.map toOperation ++ [.loopBack] := by
    rw [Block.flatten, flatten_row]
    rfl
  rw [← hflat] at h
  have hsize : (Program.ofOperations (Block.loop (row xs) .done).flatten).size
      = (Block.loop (row xs) .done).length := by
    simp [Program.ofOperations, Block.length_flatten]
  show p.stretch (i + 0) _ = _
  rw [h.stretch_eq (Nat.le_of_eq (by rw [hsize, Nat.zero_add]))]
  exact Program.holds_ofOperations _

end Stroke

-- ── Bytes and numbers ────────────────────────────────────────────────────────────

/-- A byte with so much more is zero exactly if the numbers say so. -/
theorem add_ofInt_eq_zero_iff (v : UInt8) (a : Int) :
    v + UInt8.ofInt a = 0 ↔ ((v.toNat : Int) + a) % 256 = 0 := by
  rw [← UInt8.toNat_inj, ← Tape.ofInt_toNat v, ← UInt8.ofInt_add, Tape.toNat_ofInt,
    Tape.ofInt_toNat]
  show ((v.toNat + a) % 256).toNat = 0 ↔ _
  omega

namespace Machine

open Stroke

variable {σ : Type} {vm : Machine} {i k m n q : Nat} {t u : Tape} {xs : List Stroke} {v : UInt8}

-- ── Through the body ─────────────────────────────────────────────────────────────

/-- **The machine executes one stroke after the other** and calls no stream. -/
theorem after_strokes (ch : Channels σ) (s : σ) (hb : vm.program.Holds k (row xs))
    (hon : t.OnTape) (hm : m ≤ xs.length) :
    ∃ u, applyAll (xs.take m) t = .ok u
      ∧ (vm.moved k t).after ch m s = some (vm.moved (k + m) u, s) := by
  induction m generalizing k t xs with
  | zero => exact ⟨t, rfl, rfl⟩
  | succ m ih =>
      cases xs with
      | nil => exact absurd hm (Nat.not_succ_le_zero m)
      | cons x xs =>
          obtain ⟨hx, hrest⟩ := Program.holds_basic_iff.mp hb
          obtain ⟨u, hu, hshifted⟩ := shifted_apply hon x
          have hn : (vm.moved k t).next ch s = (.ok true, vm.moved (k + 1) u, s) := by
            rw [next_at_elementary hon hx, perform_toElementary, hu]
            rfl
          obtain ⟨w, hw, ha⟩ := ih hrest hshifted.onTape (Nat.le_of_succ_le_succ hm)
          refine ⟨w, ?_, ?_⟩
          · rw [List.take_succ_cons, applyAll, hu]
            exact hw
          · rw [after_succ_of_ok hn, ha, show k + 1 + m = k + (m + 1) by omega]

-- ── Rounds ───────────────────────────────────────────────────────────────────────

/-- What `k` rounds of a loop make of the current cell `v` is zero, on a ring of `n` cells. -/
def ZeroAfter (n : Nat) (xs : List Stroke) (v : UInt8) (k : Nat) : Prop :=
  ((v.toNat : Int) + k * gain n 0 xs) % 256 = 0

/-- A loop that only counts down is over after as many rounds as there is in the current cell. -/
theorem zeroAfter_decrement_iff : ZeroAfter n [.decrement] v k ↔ k % 256 = v.toNat := by
  have hv := v.toNat_lt
  have hgain : gain n 0 [.decrement] = -1 := by
    rw [gain, gain, Int.zero_emod, if_pos rfl]
    rfl
  rw [ZeroAfter, hgain]
  omega

/-- The tape after `k` rounds. -/
abbrev Rounds (xs : List Stroke) (k : Nat) (t u : Tape) : Prop :=
  t.Shifted 0 (fun r => k * gain t.size r xs) u

theorem rounds_zero (xs : List Stroke) (hon : t.OnTape) : Rounds xs 0 t t := by
  refine (Tape.Shifted.refl hon).congr rfl fun r => ?_
  rw [Nat.cast_zero, zero_mul]

theorem Rounds.current (h : Rounds xs k t u) (hon : t.OnTape) (hc : t.current = .ok v) :
    ∃ c, u.current = .ok c ∧ (c = 0 ↔ ZeroAfter t.size xs v k) :=
  ⟨_, Tape.Shifted.current h hon hc, add_ofInt_eq_zero_iff v _⟩

/-- The bracket that closes the loop is where it is entered again. -/
theorem entry_back (i : Nat) (xs : List Stroke) :
    Entry i (.loop (row xs) .done) (i + 1 + xs.length) := by
  rw [← length_row xs]
  exact .back _ _

/-- The steps of one round more. -/
theorem steps_succ (q m : Nat) : 1 + (q + 1) * (m + 1) = 1 + q * (m + 1) + (m + 1) := by
  rw [Nat.add_mul, Nat.one_mul, Nat.add_assoc]

/-- **One round more**, up to the bracket that closes the loop. -/
theorem after_round (ch : Channels σ) (s : σ) (hb : vm.program.Holds i (.loop (row xs) .done))
    (hd : displacement xs % t.size = 0) (h : Rounds xs q t u) :
    ∃ w, Rounds xs (q + 1) t w ∧ (vm.moved (i + 1) u).after ch xs.length s
      = some (vm.moved (i + 1 + xs.length) w, s) := by
  obtain ⟨-, hbody, -⟩ := hb.parts
  obtain ⟨w, hw, ha⟩ := after_strokes ch s hbody h.onTape (Nat.le_refl _)
  obtain ⟨w', hw', hshifted⟩ := shifted_applyAll h.onTape xs
  rw [List.take_length, hw'] at hw
  obtain rfl := Except.ok.inj hw
  refine ⟨w', (h.trans hshifted).congr ?_ fun r => ?_, ha⟩
  · rw [zero_add, hd, Int.zero_emod]
  · rw [h.size, sub_zero, Nat.cast_succ, add_mul, one_mul]

/-- As long as the current cell is not zero the loop begins again. -/
theorem after_rounds (ch : Channels σ) (s : σ) (hb : vm.program.Holds i (.loop (row xs) .done))
    (hon : t.OnTape) (hc : t.current = .ok v) (hd : displacement xs % t.size = 0)
    (hq : ∀ q' ≤ q, ¬ ZeroAfter t.size xs v q') :
    ∃ u, Rounds xs q t u ∧ (vm.moved i t).after ch (1 + q * (xs.length + 1)) s
      = some (vm.moved (i + 1) u, s) := by
  induction q with
  | zero =>
      obtain ⟨c, hc', hzero⟩ := (rounds_zero xs hon).current hon hc
      have hn : (vm.moved i t).next ch s = (.ok true, vm.moved (i + 1) t, s) :=
        Entry.next_again (.front _) hb hon hc' (mt hzero.mp (hq 0 (Nat.le_refl 0)))
      refine ⟨t, rounds_zero xs hon, ?_⟩
      rw [Nat.zero_mul, after_succ_of_ok hn, after_zero]
  | succ q ih =>
      obtain ⟨u, hu, ha⟩ := ih fun q' hq' => hq q' (Nat.le_succ_of_le hq')
      obtain ⟨w, hw, hround⟩ := after_round ch s hb hd hu
      obtain ⟨c, hc', hzero⟩ := hw.current hon hc
      have hn : (vm.moved (i + 1 + xs.length) w).next ch s = (.ok true, vm.moved (i + 1) w, s) :=
        (entry_back i xs).next_again hb hw.onTape hc' (mt hzero.mp (hq (q + 1) (Nat.le_refl _)))
      refine ⟨w, hw, ?_⟩
      rw [steps_succ]
      exact after_trans ha (after_trans hround (after_succ_of_ok hn 0))

/-- Before the loop is over the machine is inside of it. -/
theorem after_inside (ch : Channels σ) (s : σ) (hb : vm.program.Holds i (.loop (row xs) .done))
    (hon : t.OnTape) (hc : t.current = .ok v) (hd : displacement xs % t.size = 0)
    (hk : ∀ q < k, ¬ ZeroAfter t.size xs v q) (hn : n < 1 + k * (xs.length + 1)) :
    ∃ c, (vm.moved i t).after ch n s = some c ∧ i ≤ c.1.ip ∧ c.1.ip ≤ i + 1 + xs.length := by
  cases n with
  | zero => exact ⟨_, rfl, Nat.le_refl i, by rw [moved_ip]; omega⟩
  | succ n =>
      -- so many whole rounds, and so many strokes of the next one
      have hn' : n < (xs.length + 1) * k := by
        rw [Nat.mul_comm]
        omega
      have hround : n / (xs.length + 1) < k := Nat.div_lt_of_lt_mul hn'
      have hstroke : n % (xs.length + 1) ≤ xs.length :=
        Nat.le_of_lt_succ (Nat.mod_lt n (Nat.succ_pos _))
      obtain ⟨u, hu, ha⟩ := after_rounds ch s hb hon hc hd fun q hq =>
        hk q (Nat.lt_of_le_of_lt hq hround)
      obtain ⟨-, hbody, -⟩ := hb.parts
      obtain ⟨w, -, hw⟩ := after_strokes ch s hbody hu.onTape hstroke
      have hall := after_trans ha hw
      rw [Nat.add_assoc, Nat.mul_comm, Nat.div_add_mod, Nat.add_comm 1 n] at hall
      refine ⟨_, hall, ?_, ?_⟩
      · rw [moved_ip]
        omega
      · rw [moved_ip]
        omega

/-- When the current cell is zero the loop is over. -/
theorem after_loop (ch : Channels σ) (s : σ) (hb : vm.program.Holds i (.loop (row xs) .done))
    (hon : t.OnTape) (hc : t.current = .ok v) (hd : displacement xs % t.size = 0)
    (hz : ZeroAfter t.size xs v k) (hk : ∀ q < k, ¬ ZeroAfter t.size xs v q) :
    ∃ u, Rounds xs k t u ∧ (vm.moved i t).after ch (1 + k * (xs.length + 1)) s
      = some (vm.moved (i + xs.length + 2) u, s) := by
  cases k with
  | zero =>
      obtain ⟨c, hc', hzero⟩ := (rounds_zero xs hon).current hon hc
      obtain rfl := hzero.mpr hz
      have hn : (vm.moved i t).next ch s = (.ok true, vm.moved (i + (row xs).length + 2) t, s) :=
        Entry.next_ended (.front _) hb hon hc'
      rw [length_row] at hn
      refine ⟨t, rounds_zero xs hon, ?_⟩
      rw [Nat.zero_mul, after_succ_of_ok hn, after_zero]
  | succ k =>
      obtain ⟨u, hu, ha⟩ := after_rounds ch s hb hon hc hd fun q hq =>
        hk q (Nat.lt_succ_of_le hq)
      obtain ⟨w, hw, hround⟩ := after_round ch s hb hd hu
      obtain ⟨c, hc', hzero⟩ := hw.current hon hc
      obtain rfl := hzero.mpr hz
      have hn : (vm.moved (i + 1 + xs.length) w).next ch s
          = (.ok true, vm.moved (i + (row xs).length + 2) w, s) :=
        (entry_back i xs).next_ended hb hw.onTape hc'
      rw [length_row] at hn
      refine ⟨w, hw, ?_⟩
      rw [steps_succ]
      exact after_trans ha (after_trans hround (after_succ_of_ok hn 0))

-- ── The whole loop ───────────────────────────────────────────────────────────────

/-- **A loop that only counts down clears the current cell**, whatever is in it, and changes no
    other. -/
theorem clearing_loop (ch : Channels σ) (s : σ) (hon : vm.tape.OnTape)
    (hc : vm.tape.current = .ok v) (hloop : Program.Fragment
      (.ofOperations [.loopForward, .decrement, .loopBack]) vm.program vm.ip) :
    ∃ u, vm.after ch (1 + v.toNat * 2) s = some (vm.moved (vm.ip + 3) u, s)
      ∧ u.pointer = vm.tape.pointer ∧ u.current = .ok 0
      ∧ ∀ r : Int, r % vm.tape.size ≠ 0 →
        u.read (some ((vm.tape.pointer + r) % vm.tape.size))
          = vm.tape.read (some ((vm.tape.pointer + r) % vm.tape.size)) := by
  have hb : vm.program.Holds vm.ip (.loop (row [.decrement]) .done) := holds_loop hloop
  have hv := v.toNat_lt
  have hz : ZeroAfter vm.tape.size [.decrement] v v.toNat :=
    zeroAfter_decrement_iff.mpr (Nat.mod_eq_of_lt hv)
  have hk : ∀ q < v.toNat, ¬ ZeroAfter vm.tape.size [.decrement] v q := by
    intro q hq h
    have heq := zeroAfter_decrement_iff.mp h
    omega
  obtain ⟨u, hu, ha⟩ := after_loop ch s hb hon hc (Int.zero_emod _) hz hk
  obtain ⟨c, hc', hzero⟩ := hu.current hon hc
  obtain rfl := hzero.mpr hz
  refine ⟨u, ha, hu.pointer_eq hon, hc', ?_⟩
  intro r hr
  rw [hu.cells, gain, gain, if_neg hr, Int.add_zero, Int.mul_zero]
  cases vm.tape.read (some ((vm.tape.pointer + r) % vm.tape.size)) with
  | error e => rfl
  | ok b => exact congrArg Except.ok (UInt8.add_zero b)

/-- What a loop around the row `xs` does that begins where `vm` stands, with `v` in the current
    cell. -/
structure Counts (ch : Channels σ) (vm : Machine) (s : σ) (xs : List Stroke) (v : UInt8) :
    Prop where
  /-- The loop is over at some time exactly if some number of rounds makes the current cell zero. -/
  ends_iff : (∃ n c, vm.after ch n s = some c ∧ c.1.ip = vm.ip + xs.length + 2)
    ↔ ∃ k, ZeroAfter vm.tape.size xs v k
  /-- Before the first such number of rounds, or for ever if there is none, every step executes an
      operation inside the loop. -/
  inside   : ∀ k, (∀ q < k, ¬ ZeroAfter vm.tape.size xs v q) → ∀ n < 1 + k * (xs.length + 1),
    ∃ c, vm.after ch n s = some c ∧ vm.ip ≤ c.1.ip ∧ c.1.ip < vm.ip + xs.length + 2
  /-- With the first such number of rounds the loop is over, and all it has done is to add so many
      times what the row adds. -/
  effect   : ∀ k, ZeroAfter vm.tape.size xs v k → (∀ q < k, ¬ ZeroAfter vm.tape.size xs v q) →
    ∃ u, vm.after ch (1 + k * (xs.length + 1)) s
        = some (vm.moved (vm.ip + xs.length + 2) u, s)
      ∧ u.size = vm.tape.size ∧ u.pointer = vm.tape.pointer ∧ u.current = .ok 0
      ∧ ∀ r : Int, u.read (some ((vm.tape.pointer + r) % vm.tape.size))
        = (vm.tape.read (some ((vm.tape.pointer + r) % vm.tape.size))).map
          (· + UInt8.ofInt (k * gain vm.tape.size r xs))

/-- **A loop around a straight line counts.** If its body brings the pointer back, the loop is over
    after the least number of rounds that makes the current cell zero, and every cell then has so
    many times more what one round adds to it. -/
theorem counting_loop_effect {σ : Type} (ch : Channels σ) (vm : Machine) (s : σ) (xs : List Stroke)
    (v : UInt8) (hon : vm.tape.OnTape) (hc : vm.tape.current = .ok v)
    (hd : displacement xs % vm.tape.size = 0)
    (hloop : Program.Fragment (.ofOperations (.loopForward :: xs.map toOperation ++ [.loopBack]))
      vm.program vm.ip) : Counts ch vm s xs v := by
  have hb := holds_loop hloop
  have hinside {k n : Nat} (hk : ∀ q < k, ¬ ZeroAfter vm.tape.size xs v q)
      (hn : n < 1 + k * (xs.length + 1)) :
      ∃ c, vm.after ch n s = some c ∧ vm.ip ≤ c.1.ip ∧ c.1.ip < vm.ip + xs.length + 2 := by
    obtain ⟨c, ha, hle, hlt⟩ := after_inside ch s hb hon hc hd hk hn
    exact ⟨c, ha, hle, by omega⟩
  have hover {k : Nat} (hz : ZeroAfter vm.tape.size xs v k)
      (hk : ∀ q < k, ¬ ZeroAfter vm.tape.size xs v q) :=
    after_loop ch s hb hon hc hd hz hk
  constructor
  · constructor
    · rintro ⟨n, c, ha, hip⟩
      refine Classical.byContradiction fun hnever => ?_
      -- as many rounds as there are steps are rounds enough
      have hn : n < 1 + n * (xs.length + 1) := by
        rw [Nat.mul_succ]
        omega
      obtain ⟨c', ha', -, hlt⟩ := hinside (fun q _ hz => hnever ⟨q, hz⟩) hn
      rw [ha] at ha'
      obtain rfl := Option.some.inj ha'
      omega
    · rintro ⟨k, hz⟩
      -- the loop is over after the first such number of rounds
      induction k using Nat.strongRecOn with
      | ind k ih =>
          by_cases hk : ∃ q < k, ZeroAfter vm.tape.size xs v q
          · obtain ⟨q, hlt, hq⟩ := hk
            exact ih q hlt hq
          · obtain ⟨u, -, ha⟩ := hover hz fun q hlt hq => hk ⟨q, hlt, hq⟩
            exact ⟨_, _, ha, rfl⟩
  · intro k hk n hn
    exact hinside hk hn
  · intro k hz hk
    obtain ⟨u, hu, ha⟩ := hover hz hk
    obtain ⟨c, hc', hzero⟩ := hu.current hon hc
    obtain rfl := hzero.mpr hz
    exact ⟨u, ha, hu.size, hu.pointer_eq hon, hc', hu.cells⟩

/-- A loop that takes one from the current cell and adds it to the next one, behind a bracket
    without a partner, on a ring of two cells. -/
theorem counting_loop_of_two_cells :
    let xs : List Stroke := [.decrement, .next, .increment, .next]
    let vm : Machine := {
      program := .ofOperations [.loopBack]
        ++ .ofOperations (.loopForward :: xs.map toOperation ++ [.loopBack])
      ip := 1
      tape := { cells := #[3, 254], pointer := 0, size_pos := by decide } }
    (vm.tape.OnTape ∧ vm.tape.current = .ok 3 ∧ displacement xs % vm.tape.size = 0
      ∧ Program.Fragment (.ofOperations (.loopForward :: xs.map toOperation ++ [.loopBack]))
        vm.program vm.ip)
    ∧ Counts .prepared vm {} xs 3 := by
  intro xs vm
  have hon : vm.tape.OnTape := ⟨by decide, by decide⟩
  have hd : displacement xs % vm.tape.size = 0 := by decide
  have hloop := Program.fragment_append_right (.ofOperations [.loopBack])
    (.ofOperations (.loopForward :: xs.map toOperation ++ [.loopBack]))
  exact ⟨⟨hon, rfl, hd, hloop⟩, counting_loop_effect .prepared vm {} xs 3 hon rfl hd hloop⟩

end Machine

end TapeMachine
