import TapeMachine.Proofs.Machine.Failure

/-!
# Lockstep

Two machines side by side, each with streams of its own. `Lockstep` says that a relation between
them survives a step of both, and that the two steps have the same result, up to the way in which
faults are told. It may hold under a condition on the first machine, for as long as that is met.

What single steps keep, executions of any length keep:

* `Lockstep.after` — either both machines execute so many operations, or neither does;
* `Lockstep.obeyAll` — the same of so many calls for a step, failed ones among them;
* `Lockstep.run` — whole runs go equally far, and fail alike where they fail;
* `Lockstep.trans` — a third machine may go beside the second.
-/

namespace TapeMachine

-- ── Faults told in another way ───────────────────────────────────────────────────

theorem mapError_id {α β : Type} (r : Except α β) : r.mapError id = r := by
  cases r with
  | error e => rfl
  | ok a => rfl

/-- A success is not touched by what is done to errors. -/
theorem mapError_eq_ok_iff {α β ε : Type} {f : α → β} {r : Except α ε} {a : ε} :
    r.mapError f = .ok a ↔ r = .ok a := by
  cases r with
  | error e => exact iff_of_false nofun nofun
  | ok b =>
      constructor
      · intro h
        exact congrArg Except.ok (Except.ok.inj h)
      · intro h
        exact congrArg Except.ok (Except.ok.inj h)

theorem rel_imp {α β : Type} {R R' : α → β → Prop} (h : ∀ {a b}, R a b → R' a b) {x : Option α}
    {y : Option β} (hR : Option.Rel R x y) : Option.Rel R' x y := by
  cases hR with
  | some hab => exact .some (h hab)
  | none => exact .none

/-- How far a run got, with its fault told in another way. -/
def Outcome.mapFault (g : Fault → Fault) : Outcome → Outcome
  | finished   => finished
  | failed f   => failed (g f)
  | unfinished => unfinished

theorem Outcome.mapFault_id (o : Outcome) : o.mapFault id = o := by
  cases o with
  | finished => rfl
  | failed f => rfl
  | unfinished => rfl

variable {σ τ υ : Type} {ch : Channels σ} {ch' : Channels τ} {ch'' : Channels υ}
  {P : Machine × σ → Prop} {g g' : Fault → Fault} {R : Machine × σ → Machine × τ → Prop}
  {R' : Machine × τ → Machine × υ → Prop} {c : Machine × σ} {c' : Machine × τ}

/-- Two runs that went equally far, the second after `d` more steps, and that left related machines
    and streams. -/
structure Run.Beside (R : Machine × σ → Machine × τ → Prop) (g : Fault → Fault) (d : Nat)
    (r : Run σ) (r' : Run τ) : Prop where
  outcome : r'.outcome = r.outcome.mapFault g
  steps   : r'.steps = r.steps + d
  related : R (r.machine, r.streams) (r'.machine, r'.streams)

namespace Machine

/-- A step of two related machines, the first of which meets a condition, has the same result and
    leaves them related. -/
structure Lockstep (ch : Channels σ) (ch' : Channels τ) (P : Machine × σ → Prop)
    (g : Fault → Fault) (R : Machine × σ → Machine × τ → Prop) : Prop where
  result : ∀ {c c'}, R c c' → P c →
    (c'.1.next ch' c'.2).1 = (c.1.next ch c.2).1.mapError g
  kept   : ∀ {c c'}, R c c' → P c → R (c.1.next ch c.2).2 (c'.1.next ch' c'.2).2

/-- No condition on machine and streams. -/
abbrev Always (_ : Machine × σ) : Prop := True

namespace Lockstep

variable {n k d limit : Nat} {events events' : Array Event}

/-- In lockstep a step succeeds here exactly if it succeeds there. -/
theorem result_ok_iff (h : Lockstep ch ch' P g R) (hR : R c c') (hP : P c) :
    (c'.1.next ch' c'.2).1 = .ok true ↔ (c.1.next ch c.2).1 = .ok true := by
  rw [h.result hR hP]
  exact mapError_eq_ok_iff

/-- **Either both machines execute so many operations or neither does**, and they stay related. -/
theorem after (h : Lockstep ch ch' P g R) (hR : R c c')
    (hP : ∀ i < n, ∀ c₁, c.1.after ch i c.2 = some c₁ → P c₁) :
    Option.Rel R (c.1.after ch n c.2) (c'.1.after ch' n c'.2) := by
  induction n generalizing c c' with
  | zero => exact .some hR
  | succ n ih =>
      have hPc : P c := hP 0 (Nat.succ_pos n) c rfl
      have hkept := h.kept hR hPc
      have hok := h.result_ok_iff hR hPc
      by_cases hn : (c.1.next ch c.2).1 = .ok true
      · have hn₁ : c.1.next ch c.2 = (.ok true, (c.1.next ch c.2).2) := Prod.ext hn rfl
        have hn₂ : c'.1.next ch' c'.2 = (.ok true, (c'.1.next ch' c'.2).2) :=
          Prod.ext (hok.mpr hn) rfl
        rw [after_succ_of_ok hn₁, after_succ_of_ok hn₂]
        refine ih hkept ?_
        intro i hi c₁ hc₁
        refine hP (i + 1) (Nat.succ_lt_succ hi) c₁ ?_
        rw [after_succ_of_ok hn₁]
        exact hc₁
      · rw [after_succ_of_ne hn, after_succ_of_ne (mt hok.mp hn)]
        exact .none

/-- What the first machine comes to has its counterpart. -/
theorem exists_after (h : Lockstep ch ch' P g R) (hR : R c c') {c₁ : Machine × σ}
    (ha : c.1.after ch n c.2 = some c₁)
    (hP : ∀ i < n, ∀ c₁, c.1.after ch i c.2 = some c₁ → P c₁) :
    ∃ c₁', c'.1.after ch' n c'.2 = some c₁' ∧ R c₁ c₁' := by
  have hrel := h.after hR hP
  rw [ha] at hrel
  generalize c'.1.after ch' n c'.2 = o at hrel
  cases hrel with
  | some hR₁ => exact ⟨_, rfl, hR₁⟩

/-- **After so many calls for a step**, whatever came of them, the machines are still related. -/
theorem obeyAll (h : Lockstep ch ch' P g R) (hR : R c c')
    (hP : ∀ i < n, P (obeyAll ch c (List.replicate i .step))) :
    R (Machine.obeyAll ch c (List.replicate n .step))
      (Machine.obeyAll ch' c' (List.replicate n .step)) := by
  induction n generalizing c c' with
  | zero => exact hR
  | succ n ih =>
      refine ih (h.kept hR (hP 0 (Nat.succ_pos n))) ?_
      intro i hi
      exact hP (i + 1) (Nat.succ_lt_succ hi)

-- ── Runs ─────────────────────────────────────────────────────────────────────────

/-- Two courses in lockstep go beside each other, whatever was counted before. -/
theorem advanceFrom (h : Lockstep ch ch' P g R) (hR : R c c')
    (hP : ∀ i < n, ∀ c₁, c.1.after ch i c.2 = some c₁ → P c₁) :
    Run.Beside R g d (advanceFrom ch n k events c.1 c.2)
      (advanceFrom ch' n (k + d) events' c'.1 c'.2) := by
  induction n generalizing k c c' events events' with
  | zero => exact ⟨rfl, rfl, hR⟩
  | succ n ih =>
      have hPc : P c := hP 0 (Nat.succ_pos n) c rfl
      have hresult := h.result hR hPc
      have hkept := h.kept hR hPc
      rw [advanceFrom_succ, advanceFrom_succ]
      rcases hn : c.1.next ch c.2 with ⟨r, vm₁, s₁⟩
      rcases hn' : c'.1.next ch' c'.2 with ⟨r', vm₁', s₁'⟩
      rw [hn, hn'] at hresult hkept
      obtain rfl : r' = r.mapError g := hresult
      rcases r with f | _ | _
      · exact ⟨rfl, rfl, hkept⟩
      · exact ⟨rfl, rfl, hkept⟩
      · show Run.Beside R g d _ (Machine.advanceFrom ch' n (k + d + 1) _ vm₁' s₁')
        rw [Nat.add_right_comm]
        refine ih hkept ?_
        intro i hi c₁ hc₁
        refine hP (i + 1) (Nat.succ_lt_succ hi) c₁ ?_
        rw [after_succ_of_ok hn]
        exact hc₁

end Lockstep

/-- The flushes of two related machines come to the same and leave them related. -/
structure FlushAlike (ch : Channels σ) (ch' : Channels τ) (g : Fault → Fault)
    (R : Machine × σ → Machine × τ → Prop) : Prop where
  result : ∀ {c c'}, R c c' →
    (flush ch' c'.1.ip c'.2).1 = (flush ch c.1.ip c.2).1.mapError g
  kept   : ∀ {c c'}, R c c' →
    R (c.1, (flush ch c.1.ip c.2).2) (c'.1, (flush ch' c'.1.ip c'.2).2)

/-- Runs beside each other stay so through the flush at the end. -/
theorem FlushAlike.conclude {d : Nat} (h : FlushAlike ch ch' g R) {r : Run σ} {r' : Run τ}
    (hr : Run.Beside R g d r r') : Run.Beside R g d (conclude ch r) (conclude ch' r') := by
  obtain ⟨o, vm, s, k, events⟩ := r
  obtain ⟨o', vm', s', k', events'⟩ := r'
  obtain ⟨ho, hk, hR⟩ := hr
  obtain rfl : o' = o.mapFault g := ho
  cases o with
  | finished =>
      have hresult := h.result hR
      have hkept := h.kept hR
      simp only [Machine.conclude, Outcome.mapFault]
      rcases hf : flush ch vm.ip s with ⟨r, s₁⟩
      rcases hf' : flush ch' vm'.ip s' with ⟨r', s₁'⟩
      rw [hf, hf'] at hresult hkept
      obtain rfl : r' = r.mapError g := hresult
      cases r with
      | error f => exact ⟨rfl, hk, hkept⟩
      | ok u => exact ⟨rfl, hk, hkept⟩
  | failed f => exact ⟨rfl, hk, hR⟩
  | unfinished => exact ⟨rfl, hk, hR⟩

/-- A run goes as far as another one that meets its machine after `d` steps goes from there. -/
theorem Lockstep.run_after {vm vm' : Machine} {s : σ} {s' : τ} {d limit : Nat}
    (h : Lockstep ch ch' P g R) (hflush : FlushAlike ch ch' g R)
    (ha : vm'.reset.after ch' d s' = some c') (hR : R (vm.reset, s) c')
    (hP : ∀ i < limit, ∀ c₁, vm.reset.after ch i s = some c₁ → P c₁) :
    Run.Beside R g d (vm.run ch limit s) (vm'.run ch' (d + limit) s') := by
  obtain ⟨events, hrest⟩ := advanceFrom_add_of_after ha limit 0
    #[.started vm'.reset.program.size vm'.reset.tape.size]
  rw [run_eq_conclude, run_eq_conclude, course, course, hrest]
  exact hflush.conclude (h.advanceFrom hR hP)

/-- **Runs of machines in lockstep go equally far.** -/
theorem Lockstep.run {vm vm' : Machine} {s : σ} {s' : τ} {limit : Nat}
    (h : Lockstep ch ch' P g R) (hflush : FlushAlike ch ch' g R)
    (hR : R (vm.reset, s) (vm'.reset, s'))
    (hP : ∀ i < limit, ∀ c₁, vm.reset.after ch i s = some c₁ → P c₁) :
    Run.Beside R g 0 (vm.run ch limit s) (vm'.run ch' limit s') := by
  have hrun := h.run_after hflush after_zero hR hP
  rw [Nat.zero_add] at hrun
  exact hrun

/-- A third machine goes beside the second. -/
theorem Lockstep.trans (h : Lockstep ch ch' P g R) (h' : Lockstep ch' ch'' Always g' R') :
    Lockstep ch ch'' P (g' ∘ g) fun c c'' => ∃ c', R c c' ∧ R' c' c'' where
  result := by
    rintro c c'' ⟨c', hR, hR'⟩ hP
    rw [h'.result hR' trivial, h.result hR hP]
    rcases (c.1.next ch c.2).1 with f | b
    · rfl
    · rfl
  kept := by
    rintro c c'' ⟨c', hR, hR'⟩ hP
    exact ⟨_, h.kept hR hP, h'.kept hR' trivial⟩

/-- Flushes that are answered alike in two steps are answered alike. -/
theorem FlushAlike.trans (h : FlushAlike ch ch' g R) (h' : FlushAlike ch' ch'' g' R') :
    FlushAlike ch ch'' (g' ∘ g) fun c c'' => ∃ c', R c c' ∧ R' c' c'' where
  result := by
    rintro c c'' ⟨c', hR, hR'⟩
    rw [h'.result hR', h.result hR]
    rcases (flush ch c.1.ip c.2).1 with f | u
    · rfl
    · rfl
  kept := by
    rintro c c'' ⟨c', hR, hR'⟩
    exact ⟨_, h.kept hR, h'.kept hR'⟩

end Machine

end TapeMachine
