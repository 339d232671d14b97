import TapeMachine.Proofs.Machine.Lockstep

/-!
# Machines that fall behind

Two machines side by side, the second of which makes steps of its own now and then. It may have to
catch up with the first one before its next step is the same step: `Follows` has one relation for
machines of which the second one has yet to do so, and another for those where it has.

The second machine comes past whatever the first one comes to, and takes at least as many steps.
So **either both of them stop or neither does** (`Follows.exists_stopsAfter_iff`), whole runs end in
the same way, and what they leave behind is related (`Follows.sameEnd`).
-/

namespace TapeMachine

variable {σ τ : Type} {ch : Channels σ} {ch' : Channels τ} {g : Fault → Fault}
  {R S : Machine × σ → Machine × τ → Prop} {c c₁ : Machine × σ} {c' : Machine × τ}

theorem Outcome.mapFault_eq_unfinished_iff {o : Outcome} :
    o.mapFault g = .unfinished ↔ o = .unfinished := by
  cases o with
  | finished => exact iff_of_false nofun nofun
  | failed f => exact iff_of_false nofun nofun
  | unfinished => exact iff_of_true rfl rfl

theorem Outcome.ofResult_mapError {r : Except Fault Bool} :
    ofResult (r.mapError g) = (ofResult r).mapFault g := by
  rcases r with f | _ | _
  · rfl
  · rfl
  · rfl

namespace Machine

variable {vm vm' : Machine} {s : σ} {s' : τ} {m n limit limit' : Nat}

/-- What follows the last step does not end a run that has not ended. -/
theorem outcome_run_eq_unfinished_iff :
    (vm.run ch limit s).outcome = .unfinished ↔ (vm.course ch limit s).outcome = .unfinished := by
  rw [run_eq_conclude]
  rcases vm.course ch limit s with ⟨_ | f | _, vm₁, s₁, k, events⟩
  · rw [conclude]
    dsimp only
    split
    · exact Iff.rfl
    · constructor
      · intro h
        cases h
      · intro h
        cases h
  · exact Iff.rfl
  · exact Iff.rfl

/-- A machine that stops has a run that ends. -/
theorem StopsAfter.run_ends (h : vm.reset.StopsAfter ch n s) :
    (vm.run ch (n + 1) s).outcome ≠ .unfinished := by
  intro hrun
  obtain ⟨-, ha⟩ := after_of_course (outcome_run_eq_unfinished_iff.mp hrun)
  obtain ⟨e, he, -⟩ := h.eq_add ha
  omega

/-- The second machine of two catches up with the first one, and the same step of both then has the
    same result and leaves them related. -/
structure Follows (ch : Channels σ) (ch' : Channels τ) (g : Fault → Fault)
    (R S : Machine × σ → Machine × τ → Prop) : Prop where
  catchesUp : ∀ {c c'}, R c c' → ∃ d c₁', c'.1.after ch' d c'.2 = some c₁' ∧ S c c₁'
  result    : ∀ {c c'}, S c c' → (c'.1.next ch' c'.2).1 = (c.1.next ch c.2).1.mapError g
  goesOn    : ∀ {c c'}, S c c' → (c.1.next ch c.2).1 = .ok true →
    R (c.1.next ch c.2).2 (c'.1.next ch' c'.2).2
  stays     : ∀ {c c'}, S c c' → (c.1.next ch c.2).1 ≠ .ok true →
    S (c.1.next ch c.2).2 (c'.1.next ch' c'.2).2

/-- Two runs that come to the same end if they come to an end. -/
structure SameEnd (S : Machine × σ → Machine × τ → Prop) (g : Fault → Fault) (ch : Channels σ)
    (ch' : Channels τ) (vm vm' : Machine) (s : σ) (s' : τ) : Prop where
  /-- The second run ends exactly if the first one does. -/
  ends    : (∃ limit, (vm'.run ch' limit s').outcome ≠ .unfinished)
    ↔ ∃ limit, (vm.run ch limit s).outcome ≠ .unfinished
  outcome : ∀ limit limit', (vm.run ch limit s).outcome ≠ .unfinished →
    (vm'.run ch' limit' s').outcome ≠ .unfinished →
    (vm'.run ch' limit' s').outcome = (vm.run ch limit s).outcome.mapFault g
  left    : ∀ limit limit', (vm.run ch limit s).outcome ≠ .unfinished →
    (vm'.run ch' limit' s').outcome ≠ .unfinished →
    S ((vm.run ch limit s).machine, (vm.run ch limit s).streams)
      ((vm'.run ch' limit' s').machine, (vm'.run ch' limit' s').streams)

theorem SameEnd.mono {S' : Machine × σ → Machine × τ → Prop} (h : SameEnd S g ch ch' vm vm' s s')
    (hS : ∀ {c c'}, S c c' → S' c c') : SameEnd S' g ch ch' vm vm' s s' where
  ends    := h.ends
  outcome := h.outcome
  left    := fun limit limit' hends hends' => hS (h.left limit limit' hends hends')

namespace Follows

/-- **Whatever the first machine comes to, the second one comes to** as well, after at least as many
    steps. -/
theorem after (h : Follows ch ch' g R S) (hR : R c c') (ha : c.1.after ch n c.2 = some c₁) :
    ∃ m c₁', n ≤ m ∧ c'.1.after ch' m c'.2 = some c₁' ∧ R c₁ c₁' := by
  induction n generalizing c c' with
  | zero =>
      obtain rfl : c = c₁ := Option.some.inj ha
      exact ⟨0, c', Nat.le_refl 0, rfl, hR⟩
  | succ n ih =>
      obtain ⟨d, c₂, hd, hS⟩ := h.catchesUp hR
      rcases next_cases ch c.1 c.2 with ⟨vm₁, s₁, hn⟩ | hn
      · have hresult := h.result hS
        have hon := h.goesOn hS (congrArg Prod.fst hn)
        rw [hn] at hresult hon
        have hn' : c₂.1.next ch' c₂.2 = (.ok true, (c₂.1.next ch' c₂.2).2) :=
          Prod.ext hresult rfl
        rw [after_succ_of_ok hn] at ha
        obtain ⟨m, c₁', hm, ha', hR'⟩ := ih hon ha
        refine ⟨d + (m + 1), c₁', by omega, after_trans hd ?_, hR'⟩
        rw [after_succ_of_ok hn']
        exact ha'
      · rw [after_succ_of_ne hn] at ha
        exact nomatch ha

/-- Where the first machine stops, the second one does, when it has caught up. -/
theorem stop (h : Follows ch ch' g R S) (hR : R c c') (ha : c.1.after ch n c.2 = some c₁)
    (hstop : (c₁.1.next ch c₁.2).1 ≠ .ok true) :
    ∃ m c₁', n ≤ m ∧ c'.1.after ch' m c'.2 = some c₁'
      ∧ (c₁'.1.next ch' c₁'.2).1 = (c₁.1.next ch c₁.2).1.mapError g
      ∧ S (c₁.1.next ch c₁.2).2 (c₁'.1.next ch' c₁'.2).2 := by
  obtain ⟨m, c₂, hm, ha', hR'⟩ := h.after hR ha
  obtain ⟨d, c₃, hd, hS⟩ := h.catchesUp hR'
  exact ⟨m + d, c₃, by omega, after_trans ha' hd, h.result hS, h.stays hS hstop⟩

/-- **Either both machines stop or neither does.** -/
theorem exists_stopsAfter_iff (h : Follows ch ch' g R S) (hR : R c c') :
    (∃ m, c'.1.StopsAfter ch' m c'.2) ↔ ∃ n, c.1.StopsAfter ch n c.2 := by
  constructor
  · rintro ⟨m, hstop⟩
    -- a first machine that goes on for longer than `m` steps would take the second one along
    rcases stops_or_goes_on ch (m + 1) c.1 c.2 with ⟨n, -, hn⟩ | ⟨vm₁, s₁, ha⟩
    · exact ⟨n, hn⟩
    · obtain ⟨m', c₁', hm', ha', -⟩ := h.after hR ha
      obtain ⟨e, he, -⟩ := hstop.eq_add ha'
      omega
  · rintro ⟨n, vm₁, s₁, ha, hstop⟩
    obtain ⟨m, c₁', -, ha', hresult, -⟩ := h.stop hR ha hstop
    refine ⟨m, c₁'.1, c₁'.2, ha', ?_⟩
    rw [hresult]
    exact mt mapError_eq_ok_iff.mp hstop

/-- What ends on the first machine ends in the same way on the second one, within some limit. -/
theorem course (h : Follows ch ch' g R S) (hR : R (vm.reset, s) (vm'.reset, s'))
    (hends : (vm.course ch limit s).outcome ≠ .unfinished) :
    ∃ limit' d, Run.Beside S g d (vm.course ch limit s) (vm'.course ch' limit' s') := by
  obtain ⟨r, s₁, -, hr, ho, ha, hn⟩ := stop_of_course hends
  have hstop : ((vm.course ch limit s).machine.next ch s₁).1 ≠ .ok true := by
    rw [hn]
    exact hr
  obtain ⟨m, c₁', hm, ha', hresult, hS⟩ := h.stop hR ha hstop
  rw [hn] at hresult hS
  have hr' : r.mapError g ≠ .ok true := mt mapError_eq_ok_iff.mp hr
  obtain ⟨d, hd⟩ := Nat.exists_eq_add_of_le hm
  obtain ⟨ho', hmachine, hstreams, hsteps⟩ :=
    course_of_stop ha' (Prod.ext hresult rfl) hr' m.lt_succ_self
  refine ⟨m + 1, d, ?_, hsteps.trans hd, ?_⟩
  · rw [ho, ← Outcome.ofResult_mapError]
    exact ho'
  · rw [hmachine, hstreams]
    exact hS

/-- **Whole runs come to the same end.** -/
theorem sameEnd (h : Follows ch ch' g R S) (hflush : FlushAlike ch ch' g S)
    (hR : R (vm.reset, s) (vm'.reset, s')) : SameEnd S g ch ch' vm vm' s s' := by
  have halike {limit limit' : Nat} (hends : (vm.run ch limit s).outcome ≠ .unfinished)
      (hends' : (vm'.run ch' limit' s').outcome ≠ .unfinished) :
      ∃ d, Run.Beside S g d (vm.run ch limit s) (vm'.run ch' limit' s') := by
    rw [Ne, outcome_run_eq_unfinished_iff] at hends hends'
    obtain ⟨l, d, hbeside⟩ := h.course hR hends
    have hl : (vm'.course ch' l s').outcome ≠ .unfinished := by
      rw [hbeside.outcome, Ne, Outcome.mapFault_eq_unfinished_iff]
      exact hends
    rw [course_eq_of_limits hl hends'] at hbeside
    exact ⟨d, hflush.conclude hbeside⟩
  constructor
  · have hiff := h.exists_stopsAfter_iff hR
    constructor
    · rintro ⟨limit, hends⟩
      rw [Ne, outcome_run_eq_unfinished_iff] at hends
      obtain ⟨n, hn⟩ := hiff.mp (stopsAfter_of_course hends)
      exact ⟨n + 1, hn.run_ends⟩
    · rintro ⟨limit, hends⟩
      rw [Ne, outcome_run_eq_unfinished_iff] at hends
      obtain ⟨n, hn⟩ := hiff.mpr (stopsAfter_of_course hends)
      exact ⟨n + 1, hn.run_ends⟩
  · intro limit limit' hends hends'
    obtain ⟨d, hbeside⟩ := halike hends hends'
    exact hbeside.outcome
  · intro limit limit' hends hends'
    obtain ⟨d, hbeside⟩ := halike hends hends'
    exact hbeside.related

end Follows

end Machine

end TapeMachine
