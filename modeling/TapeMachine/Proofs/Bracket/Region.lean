import TapeMachine.Machine.Demand
import TapeMachine.Proofs.Bracket.Matching
import TapeMachine.Proofs.Machine.Course

/-!
# Loops are regions

The machine has no loops, only two searches of the text. Yet the brackets of a pair fence in what is
between them: **control enters behind the first bracket and leaves behind the second one**, in every
program, balanced or not, and wherever the pointer is. No other bracket jumps into the loop or out of
it, because the pair that it belongs to does not cross the pair of the loop.

* `Move.inside_or_leaves`, `Move.enters_of_inside` — one move, from inside and from outside.
* `matched_loop_is_region` — the same for a step.
* `exists_leaving`, `exists_entering` — over many steps: who was inside and is not has left behind
  the second bracket, who was not and is has entered behind the first.
-/

namespace TapeMachine

/-- The places of the loop with brackets at `i` and `j`: behind the first bracket, up to the second
    one. -/
def Program.Inside (i j k : Nat) : Prop :=
  i < k ∧ k ≤ j

namespace Machine

open Program (Inside)

variable {σ : Type} {ch : Channels σ} {vm vm' : Machine} {s s' : σ} {i j k n : Nat} {t : Tape}

-- ── One move ─────────────────────────────────────────────────────────────────────

/-- Where something else stands, that bracket does not. -/
theorem ip_ne_of_fetch {x y : Element} (hf : vm.fetch = some x) (hk : vm.program[k]? = some y)
    (hxy : x ≠ y) : vm.ip ≠ k := by
  rintro rfl
  exact hxy (Option.some.inj ((getElem?_of_fetch hf).symm.trans hk))

/-- A move from inside the loop stays inside, or ends the loop at its second bracket. -/
theorem Move.inside_or_leaves (h : vm.Move k t) (hm : vm.program.Matched i j)
    (hin : Inside i j vm.ip) :
    Inside i j k ∨ (k = j + 1 ∧ vm.ip = j ∧ vm.fetch = some .closing ∧ vm.tape.current = .ok 0) := by
  obtain ⟨hlt, hle⟩ := hin
  cases h with
  | performed op _ hf =>
      have hne : vm.ip ≠ j :=
        ip_ne_of_fetch hf hm.closes fun h => op.toOperation_ne.2 (Element.operation.inj h)
      exact Or.inl ⟨by omega, by omega⟩
  | entered b hf =>
      have hne : vm.ip ≠ j := ip_ne_of_fetch hf hm.closes nofun
      exact Or.inl ⟨by omega, by omega⟩
  | skipped c hf _ hc =>
      have hinner := (Program.partnerRight_eq_some_iff (getElem?_of_fetch hf)).mp hc
      have hne : vm.ip ≠ j := ip_ne_of_fetch hf hm.closes nofun
      have hc : c < j := hm.lt_of_inside hinner hlt (by omega)
      have hlt' := hinner.lt
      exact Or.inl ⟨by omega, by omega⟩
  | left hf hc =>
      rcases Nat.eq_or_lt_of_le hle with heq | hlt'
      · exact Or.inr ⟨by omega, heq, hf, hc⟩
      · exact Or.inl ⟨by omega, by omega⟩
  | repeated b o hf _ _ ho =>
      have hinner := (Program.partnerLeft_eq_some_iff (getElem?_of_fetch hf)).mp ho
      have hlt' := hinner.lt
      have hpairs := hm.nested_or_disjoint hinner
      exact Or.inl ⟨by omega, by omega⟩

/-- A move from outside leads into the loop only from its first bracket, and right behind it. -/
theorem Move.enters_of_inside (h : vm.Move k t) (hm : vm.program.Matched i j)
    (hout : ¬ Inside i j vm.ip) (hin : Inside i j k) :
    vm.ip = i ∧ k = i + 1 ∧ vm.fetch = some .opening ∧ ∃ b, vm.tape.current = .ok b ∧ b ≠ 0 := by
  obtain ⟨hlt, hle⟩ := hin
  unfold Inside at hout
  have hij := hm.lt
  cases h with
  | performed op _ hf =>
      have hne : vm.ip ≠ i :=
        ip_ne_of_fetch hf hm.opens fun h => op.toOperation_ne.1 (Element.operation.inj h)
      omega
  | entered b hf hc hb => exact ⟨by omega, by omega, hf, b, hc, hb⟩
  | skipped c hf _ hc =>
      have houter := (Program.partnerRight_eq_some_iff (getElem?_of_fetch hf)).mp hc
      have hlt' := houter.lt
      have hpairs := hm.nested_or_disjoint houter
      omega
  | left hf =>
      have hne : vm.ip ≠ i := ip_ne_of_fetch hf hm.opens nofun
      omega
  | repeated b o hf _ _ ho =>
      have houter := (Program.partnerLeft_eq_some_iff (getElem?_of_fetch hf)).mp ho
      have hlt' := houter.lt
      have hpairs := hm.nested_or_disjoint houter
      omega

-- ── One step ─────────────────────────────────────────────────────────────────────

/-- **Brackets that belong together fence in their loop.** From inside, a step stays inside or ends
    the loop at its second bracket; from outside, it comes in only from the first bracket. A step
    from any other place, be there a bracket or not, crosses no end of the loop. Steps that fail are
    no exception, since they go nowhere. -/
theorem matched_loop_is_region (hi : vm.program[i]? = some .opening)
    (hj : vm.program.partnerRight i = some j) (ch : Channels σ) (s : σ) :
    (Inside i j vm.ip → Inside i j (vm.step ch s).machine.ip
      ∨ ((vm.step ch s).machine.ip = j + 1 ∧ vm.ip = j ∧ vm.fetch = some .closing
        ∧ vm.tape.current = .ok 0))
    ∧ (¬ Inside i j vm.ip → Inside i j (vm.step ch s).machine.ip →
        vm.ip = i ∧ (vm.step ch s).machine.ip = i + 1 ∧ vm.fetch = some .opening
        ∧ ∃ b, vm.tape.current = .ok b ∧ b ≠ 0)
    ∧ (vm.ip ≠ i → vm.ip ≠ j → (Inside i j (vm.step ch s).machine.ip ↔ Inside i j vm.ip)) := by
  have hm : vm.program.Matched i j := (Program.partnerRight_eq_some_iff hi).mp hj
  rcases moves_or_stays ch vm s with ⟨k, t, s', hmove, hn⟩ | ⟨r, s', -, hn⟩
  · have hk : (vm.step ch s).machine.ip = k := congrArg (·.2.1.ip) hn
    rw [hk]
    refine ⟨hmove.inside_or_leaves hm, hmove.enters_of_inside hm, ?_⟩
    intro hne hne'
    constructor
    · intro hin
      refine Classical.byContradiction fun hout => ?_
      exact hne (hmove.enters_of_inside hm hout hin).1
    · intro hin
      rcases hmove.inside_or_leaves hm hin with hin' | ⟨-, heq, -⟩
      · exact hin'
      · exact absurd heq hne'
  · have hk : (vm.step ch s).machine = vm := congrArg (·.2.1) hn
    rw [hk]
    exact ⟨Or.inl, fun hout hin => absurd hin hout, fun _ _ => Iff.rfl⟩

/-- In `] [ [ - ] ] [` the inner loop is left out: from its first bracket the step goes to the outer
    `loopBack`, which is still inside the outer loop. -/
theorem region_in_unbalanced :
    let vm : Machine :=
      { program := .ofOperations [.loopBack, .loopForward, .loopForward, .decrement, .loopBack,
          .loopBack, .loopForward], ip := 2, tape := .blank 1 Nat.one_pos }
    let vm' := (vm.step Channels.prepared {}).machine
    vm.program[1]? = some .opening ∧ vm.program.partnerRight 1 = some 5
      ∧ (vm.step Channels.prepared {}).result = .ok true ∧ vm'.ip = 5
      ∧ (Inside 1 5 vm'.ip ↔ Inside 1 5 vm.ip) :=
  ⟨rfl, rfl, rfl, rfl, (matched_loop_is_region rfl rfl _ _).2.2 nofun nofun⟩

-- ── Many steps ───────────────────────────────────────────────────────────────────

/-- Who was inside the loop and is not has been at its second bracket with a zero cell. -/
theorem exists_leaving (hm : vm.program.Matched i j) (hin : Inside i j vm.ip)
    (ha : vm.after ch n s = some (vm', s')) (hout : ¬ Inside i j vm'.ip) :
    ∃ m vm₁ s₁, m < n ∧ vm.after ch m s = some (vm₁, s₁) ∧ vm₁.ip = j
      ∧ vm₁.fetch = some .closing ∧ vm₁.tape.current = .ok 0 := by
  induction n generalizing vm s with
  | zero =>
      obtain ⟨rfl, rfl⟩ := Prod.mk.inj (Option.some.inj ha)
      exact absurd hin hout
  | succ n ih =>
      rcases next_cases ch vm s with ⟨vm₁, s₁, hn⟩ | hn
      · obtain ⟨k, t, hmove, rfl⟩ := move_of_next hn
        rw [after_succ_of_ok hn] at ha
        rcases hmove.inside_or_leaves hm hin with hin' | ⟨-, hj, hf, hc⟩
        · have hm' : (vm.moved k t).program.Matched i j := hm
          obtain ⟨m, vm₂, s₂, hlt, ha₂, hend⟩ := ih hm' hin' ha
          refine ⟨m + 1, vm₂, s₂, Nat.succ_lt_succ hlt, ?_, hend⟩
          rw [after_succ_of_ok hn]
          exact ha₂
        · exact ⟨0, vm, s, Nat.succ_pos n, after_zero, hj, hf, hc⟩
      · rw [after_succ_of_ne hn] at ha
        exact nomatch ha

/-- Who was outside the loop and is not has been at its first bracket with a cell that is not
    zero. -/
theorem exists_entering (hm : vm.program.Matched i j) (hout : ¬ Inside i j vm.ip)
    (ha : vm.after ch n s = some (vm', s')) (hin : Inside i j vm'.ip) :
    ∃ m vm₁ s₁, m < n ∧ vm.after ch m s = some (vm₁, s₁) ∧ vm₁.ip = i
      ∧ vm₁.fetch = some .opening ∧ ∃ b, vm₁.tape.current = .ok b ∧ b ≠ 0 := by
  induction n generalizing vm s with
  | zero =>
      obtain ⟨rfl, rfl⟩ := Prod.mk.inj (Option.some.inj ha)
      exact absurd hin hout
  | succ n ih =>
      rcases next_cases ch vm s with ⟨vm₁, s₁, hn⟩ | hn
      · obtain ⟨k, t, hmove, rfl⟩ := move_of_next hn
        rw [after_succ_of_ok hn] at ha
        by_cases hk : Inside i j k
        · obtain ⟨hi, -, hf, hc⟩ := hmove.enters_of_inside hm hout hk
          exact ⟨0, vm, s, Nat.succ_pos n, after_zero, hi, hf, hc⟩
        · have hm' : (vm.moved k t).program.Matched i j := hm
          obtain ⟨m, vm₂, s₂, hlt, ha₂, hstart⟩ := ih hm' hk ha
          refine ⟨m + 1, vm₂, s₂, Nat.succ_lt_succ hlt, ?_, hstart⟩
          rw [after_succ_of_ok hn]
          exact ha₂
      · rw [after_succ_of_ne hn] at ha
        exact nomatch ha

end Machine

end TapeMachine
