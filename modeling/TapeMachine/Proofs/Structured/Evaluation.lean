import TapeMachine.Proofs.Machine.Elementary

/-!
# Finished evaluations

The meaning of a tree as a relation. `Block.evaluate` needs a limit on its depth, and
`Block.Evaluates` says what it comes to when the limit is large enough: one rule for each way in
which a block can go on, so that proofs about evaluations that end go by the rules and never see
a limit.

* `exists_depth_iff` — the rules derive **exactly the evaluations that some limit finishes**.
* `Evaluates.place_eq` — an evaluation that succeeds ends behind its block.
* `Evaluates.exists_fault` — one that fails does so at an elementary operation of its block.
-/

namespace TapeMachine.Block

variable {σ : Type} {ch : Channels σ} {b body rest : Block} {op : Elementary} {f : Fault}
  {c : UInt8} {d j k : Nat} {t t' : Tape} {s s' : σ} {e : Evaluation σ}

-- ── Equations ────────────────────────────────────────────────────────────────────

/-- An operation that succeeds leaves the rest to be evaluated. -/
theorem evaluate_basic (hp : op.perform ch k t s = (.ok t', s')) (d : Nat) :
    (basic op rest).evaluate ch (d + 1) k t s = rest.evaluate ch d (k + 1) t' s' := by
  rw [evaluate, hp]

/-- An operation that fails ends the evaluation where it stands. -/
theorem evaluate_fault (hp : op.perform ch k t s = (.error f, s')) (d : Nat) :
    (basic op rest).evaluate ch (d + 1) k t s = ⟨.failed f, k, t, s'⟩ := by
  rw [evaluate, hp]

theorem evaluate_astray {a : AddressError} (hc : t.current = .error a) (d : Nat) :
    (loop body rest).evaluate ch (d + 1) k t s = ⟨.failed (.address a), k, t, s⟩ := by
  rw [evaluate, hc]

/-- A loop with a zero cell is left out. -/
theorem evaluate_ended (hc : t.current = .ok 0) (d : Nat) :
    (loop body rest).evaluate ch (d + 1) k t s
      = rest.evaluate ch d (k + body.length + 2) t s := by
  rw [evaluate, hc]
  exact if_pos rfl

/-- A loop whose body comes to its end is looked at again. -/
theorem evaluate_again (hc : t.current = .ok c) (hz : c ≠ 0)
    (hb : body.evaluate ch d (k + 1) t s = ⟨.finished, j, t', s'⟩) :
    (loop body rest).evaluate ch (d + 1) k t s = (loop body rest).evaluate ch d k t' s' := by
  rw [evaluate, hc]
  dsimp only
  rw [if_neg hz, hb]

/-- A loop whose body does not come to its end ends as the body does. -/
theorem evaluate_broken (hc : t.current = .ok c) (hz : c ≠ 0)
    (hb : (body.evaluate ch d (k + 1) t s).outcome ≠ .finished) :
    (loop body rest).evaluate ch (d + 1) k t s = body.evaluate ch d (k + 1) t s := by
  rw [evaluate, hc]
  dsimp only
  rw [if_neg hz]
  split
  · next hf => exact absurd hf hb
  · rfl

-- ── The rules ────────────────────────────────────────────────────────────────────

/-- A block at place `k`, evaluated on a tape and streams, comes to an end. -/
inductive Evaluates (ch : Channels σ) : Nat → Block → Tape → σ → Evaluation σ → Prop where
  | done {k : Nat} {t : Tape} {s : σ} :
      Evaluates ch k done t s ⟨.finished, k, t, s⟩
  | basic {k : Nat} {op : Elementary} {rest : Block} {t t' : Tape} {s s' : σ} {e : Evaluation σ}
      (hp : op.perform ch k t s = (.ok t', s')) (hr : Evaluates ch (k + 1) rest t' s' e) :
      Evaluates ch k (basic op rest) t s e
  | fault {k : Nat} {op : Elementary} {rest : Block} {t : Tape} {s s' : σ} {f : Fault}
      (hp : op.perform ch k t s = (.error f, s')) :
      Evaluates ch k (basic op rest) t s ⟨.failed f, k, t, s'⟩
  | astray {k : Nat} {body rest : Block} {t : Tape} {s : σ} {a : AddressError}
      (hc : t.current = .error a) :
      Evaluates ch k (loop body rest) t s ⟨.failed (.address a), k, t, s⟩
  | ended {k : Nat} {body rest : Block} {t : Tape} {s : σ} {e : Evaluation σ}
      (hc : t.current = .ok 0) (hr : Evaluates ch (k + body.length + 2) rest t s e) :
      Evaluates ch k (loop body rest) t s e
  | again {j k : Nat} {body rest : Block} {c : UInt8} {t t' : Tape} {s s' : σ} {e : Evaluation σ}
      (hc : t.current = .ok c) (hz : c ≠ 0)
      (hb : Evaluates ch (k + 1) body t s ⟨.finished, j, t', s'⟩)
      (hl : Evaluates ch k (loop body rest) t' s' e) :
      Evaluates ch k (loop body rest) t s e
  | broken {j k : Nat} {body rest : Block} {c : UInt8} {t t' : Tape} {s s' : σ} {f : Fault}
      (hc : t.current = .ok c) (hz : c ≠ 0)
      (hb : Evaluates ch (k + 1) body t s ⟨.failed f, j, t', s'⟩) :
      Evaluates ch k (loop body rest) t s ⟨.failed f, j, t', s'⟩

/-- An evaluation that does not meet its limit follows the rules. -/
theorem evaluates_of_evaluate (h : (b.evaluate ch d k t s).outcome ≠ .unfinished) :
    Evaluates ch k b t s (b.evaluate ch d k t s) := by
  induction d generalizing b k t s with
  | zero => exact absurd rfl h
  | succ d ih =>
      cases b with
      | done => exact .done
      | basic op rest =>
          rcases hp : op.perform ch k t s with ⟨f | t', s'⟩
          · rw [evaluate_fault hp]
            exact .fault hp
          · rw [evaluate_basic hp] at h ⊢
            exact .basic hp (ih h)
      | loop body rest =>
          cases hc : t.current with
          | error a =>
              rw [evaluate_astray hc]
              exact .astray hc
          | ok c =>
              by_cases hz : c = 0
              · subst hz
                rw [evaluate_ended hc] at h ⊢
                exact .ended hc (ih h)
              · have ihb := ih (b := body) (k := k + 1) (t := t) (s := s)
                rcases hb : body.evaluate ch d (k + 1) t s with ⟨o, j, t', s'⟩
                rw [hb] at ihb
                cases o with
                | finished =>
                    rw [evaluate_again hc hz hb] at h ⊢
                    exact .again hc hz (ihb nofun) (ih h)
                | failed f =>
                    rw [evaluate_broken hc hz (by rw [hb]; exact nofun), hb]
                    exact .broken hc hz (ihb nofun)
                | unfinished =>
                    rw [evaluate_broken hc hz (by rw [hb]; exact nofun), hb] at h
                    exact absurd rfl h

/-- What follows the rules is what every limit gives that is large enough. -/
theorem Evaluates.exists_depth (h : Evaluates ch k b t s e) :
    ∃ d, ∀ n, b.evaluate ch (d + n) k t s = e := by
  induction h with
  | done =>
      refine ⟨1, fun n => ?_⟩
      rw [Nat.add_comm]
      rfl
  | basic hp _ ih =>
      obtain ⟨d, hd⟩ := ih
      refine ⟨d + 1, fun n => ?_⟩
      rw [Nat.add_right_comm, evaluate_basic hp]
      exact hd n
  | fault hp =>
      refine ⟨1, fun n => ?_⟩
      rw [Nat.add_comm]
      exact evaluate_fault hp n
  | astray hc =>
      refine ⟨1, fun n => ?_⟩
      rw [Nat.add_comm]
      exact evaluate_astray hc n
  | ended hc _ ih =>
      obtain ⟨d, hd⟩ := ih
      refine ⟨d + 1, fun n => ?_⟩
      rw [Nat.add_right_comm, evaluate_ended hc]
      exact hd n
  | again hc hz _ _ ihb ihl =>
      -- the limit has to be large enough for the body and for what is left of the loop
      obtain ⟨d, hd⟩ := ihb
      obtain ⟨d', hd'⟩ := ihl
      refine ⟨d + d' + 1, fun n => ?_⟩
      have hbody := hd (d' + n)
      have hloop := hd' (d + n)
      rw [← Nat.add_assoc] at hbody
      rw [Nat.add_left_comm, ← Nat.add_assoc] at hloop
      rw [Nat.add_right_comm, evaluate_again hc hz hbody]
      exact hloop
  | broken hc hz _ ih =>
      obtain ⟨d, hd⟩ := ih
      refine ⟨d + 1, fun n => ?_⟩
      rw [Nat.add_right_comm, evaluate_broken hc hz (by rw [hd n]; exact nofun)]
      exact hd n

/-- What a block evaluates to is never unfinished. -/
theorem Evaluates.outcome_ne (h : Evaluates ch k b t s e) : e.outcome ≠ .unfinished := by
  induction h with
  | done => exact nofun
  | basic _ _ ih => exact ih
  | fault => exact nofun
  | astray => exact nofun
  | ended _ _ ih => exact ih
  | again _ _ _ _ _ ih => exact ih
  | broken => exact nofun

/-- The rules derive exactly what some limit finishes. -/
theorem exists_depth_iff (he : e.outcome ≠ .unfinished) :
    (∃ d, b.evaluate ch d k t s = e) ↔ Evaluates ch k b t s e := by
  constructor
  · rintro ⟨d, rfl⟩
    exact evaluates_of_evaluate he
  · intro h
    obtain ⟨d, hd⟩ := h.exists_depth
    exact ⟨d, hd 0⟩

-- ── Where an evaluation ends ─────────────────────────────────────────────────────

/-- An evaluation leaves the pointer on the tape. -/
theorem Evaluates.onTape (h : Evaluates ch k b t s e) (hon : t.OnTape) : e.tape.OnTape := by
  induction h with
  | done => exact hon
  | basic hp _ ih => exact ih (Elementary.onTape_of_perform hon hp).1
  | fault => exact hon
  | astray => exact hon
  | ended _ _ ih => exact ih hon
  | again _ _ _ _ ihb ihl => exact ihl (ihb hon)
  | broken _ _ _ ih => exact ih hon

/-- An evaluation that succeeds ends behind its block. -/
theorem Evaluates.place_eq (h : Evaluates ch k b t s e) (he : e.outcome = .finished) :
    e.place = k + b.length := by
  induction h with
  | done => rfl
  | basic _ _ ih =>
      rw [ih he, length]
      omega
  | fault => cases he
  | astray => cases he
  | ended _ _ ih =>
      rw [ih he, length]
      omega
  | again _ _ _ _ _ ihl => exact ihl he
  | broken => cases he

/-- Behind a loop the program goes on with the rest. -/
theorem getElem?_behind_loop (body rest : Block) (i : Nat) :
    (loop body rest).flatten[body.length + 2 + i]? = rest.flatten[i]? := by
  rw [← length_flatten, flatten, List.getElem?_append_right (by simp; omega), List.length_cons,
    show body.flatten.length + 2 + i - (body.flatten.length + 1) = i + 1 by omega,
    List.getElem?_cons_succ]

/-- An evaluation that fails on the tape does so at an elementary operation of its block, which
    fails on the tape and the streams that have come to it. -/
theorem Evaluates.exists_fault (h : Evaluates ch k b t s e) (hon : t.OnTape)
    (he : e.outcome = .failed f) :
    ∃ (i : Nat) (op : Elementary) (s' : σ), e.place = k + i
      ∧ b.flatten[i]? = some op.toOperation
      ∧ op.perform ch e.place e.tape s' = (.error f, e.streams) := by
  induction h with
  | done => cases he
  | basic hp _ ih =>
      obtain ⟨i, op, s', hi, hop, hf⟩ := ih (Elementary.onTape_of_perform hon hp).1 he
      exact ⟨i + 1, op, s', by omega, hop, hf⟩
  | fault hp =>
      obtain rfl := Outcome.failed.inj he
      exact ⟨0, _, _, rfl, rfl, hp⟩
  | astray hc =>
      rw [hon.current_eq] at hc
      cases hc
  | ended _ _ ih =>
      obtain ⟨i, op, s', hi, hop, hf⟩ := ih hon he
      refine ⟨_, op, s', ?_, (getElem?_behind_loop ..).trans hop, hf⟩
      omega
  | again _ _ hb _ _ ihl => exact ihl (hb.onTape hon) he
  | broken _ _ _ ih =>
      obtain ⟨i, op, s', hi, hop, hf⟩ := ih hon he
      obtain ⟨hlt, -⟩ := List.getElem?_eq_some_iff.mp hop
      exact ⟨i + 1, op, s', by omega, (List.getElem?_append_left hlt).trans hop, hf⟩

end TapeMachine.Block
