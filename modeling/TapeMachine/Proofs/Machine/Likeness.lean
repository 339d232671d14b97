import TapeMachine.Proofs.Machine.Traffic

/-!
# Streams that answer alike

One machine goes the same way between different streams as long as it gets the same answers. What
the streams remember need not be the same: it is enough that some relation holds between the two at
the start, that related streams answer every call alike, and that every call leaves them related.

* `Channels.Alike` says so of the three calls, one by one.
* `Alike.next`, `Alike.trail` and `Alike.run` carry it to steps and whole runs. **The runs are the
  same**, whatever their length, and what the streams remember is related at the end.
-/

namespace TapeMachine

variable {σ τ : Type} {R : σ → τ → Prop} {ch : Channels σ} {ch' : Channels τ} {s : σ} {s' : τ}

/-- Channels that answer alike as long as a relation holds between what they remember, and that do
    not break it. -/
structure Channels.Alike (R : σ → τ → Prop) (ch : Channels σ) (ch' : Channels τ) : Prop where
  read  : ∀ {s s'}, R s s' →
    (ch.read s).1 = (ch'.read s').1 ∧ R (ch.read s).2 (ch'.read s').2
  write : ∀ (b : UInt8) {s s'}, R s s' →
    (ch.write b s).1 = (ch'.write b s').1 ∧ R (ch.write b s).2 (ch'.write b s').2
  /-- A flush that comes to nothing where there is nothing to flush counts as one. -/
  flush : ∀ (ip : Nat) {s s'}, R s s' →
    (Machine.flush ch ip s).1 = (Machine.flush ch' ip s').1
      ∧ R (Machine.flush ch ip s).2 (Machine.flush ch' ip s').2

/-- Two runs that are the same but for their streams, which are related. -/
structure Run.Like (R : σ → τ → Prop) (r : Run σ) (r' : Run τ) : Prop where
  outcome : r.outcome = r'.outcome
  machine : r.machine = r'.machine
  steps   : r.steps = r'.steps
  events  : r.events = r'.events
  streams : R r.streams r'.streams

/-- Runs that are alike, with streams that are the same, are the same. -/
theorem Run.Like.eq {S : σ → σ → Prop} {r r' : Run σ} (h : Like S r r')
    (hS : ∀ {s s'}, S s s' → s = s') : r = r' := by
  obtain ⟨o, vm, s, k, events⟩ := r
  obtain ⟨rfl, rfl, rfl, rfl, hs⟩ := h
  obtain rfl := hS hs
  rfl

namespace Channels.Alike

variable {vm : Machine} {n k limit : Nat} {events : Array Event}

-- ── Steps ────────────────────────────────────────────────────────────────────────

theorem sameAnswer (h : Alike R ch ch') (hR : R s s') (d : Demand) : ch.SameAnswer s ch' s' d := by
  cases d with
  | read => exact (h.read hR).1
  | write b => exact (h.write b hR).1

theorem serveAll (h : Alike R ch ch') (hR : R s s') (ds : List Demand) :
    R (ch.serveAll s ds) (ch'.serveAll s' ds) := by
  induction ds generalizing s s' with
  | nil => exact hR
  | cons d ds ih =>
      cases d with
      | read => exact ih (h.read hR).2
      | write b => exact ih (h.write b hR).2

/-- A step goes the same way, and leaves the streams related. -/
theorem next (h : Alike R ch ch') (hR : R s s') (vm : Machine) :
    ∃ r vm₁ s₁ s₁', vm.next ch s = (r, vm₁, s₁) ∧ vm.next ch' s' = (r, vm₁, s₁') ∧ R s₁ s₁' := by
  obtain ⟨hresult, hmachine⟩ := Machine.next_congr_of_request fun d (_ : vm.request? = some d) =>
    h.sameAnswer hR d
  have hstreams : R (vm.next ch s).2.2 (vm.next ch' s').2.2 := by
    rw [Machine.streams_next_of_request, Machine.streams_next_of_request]
    exact h.serveAll hR _
  exact ⟨_, _, _, (vm.next ch' s').2.2, rfl, Prod.ext hresult.symm (Prod.ext hmachine.symm rfl),
    hstreams⟩

-- ── Runs ─────────────────────────────────────────────────────────────────────────

/-- After so many operations the machine is the same, and the streams are related. -/
theorem after (h : Alike R ch ch') (hR : R s s') {vm' : Machine} {s₁ : σ}
    (ha : vm.after ch n s = some (vm', s₁)) :
    ∃ s₁', vm.after ch' n s' = some (vm', s₁') ∧ R s₁ s₁' := by
  induction n generalizing vm s s' with
  | zero =>
      obtain ⟨rfl, rfl⟩ := Prod.mk.inj (Option.some.inj ha)
      exact ⟨s', rfl, hR⟩
  | succ n ih =>
      obtain ⟨r, vm₁, s₁, s₁', hn, hn', hR₁⟩ := h.next hR vm
      rw [Machine.after, hn] at ha
      rw [Machine.after, hn']
      rcases r with _ | _ | _
      · cases ha
      · cases ha
      · exact ih hR₁ ha

/-- The machine passes through the same states. -/
theorem trail (h : Alike R ch ch') (hR : R s s') (n : Nat) (vm : Machine) :
    vm.trail ch n s = vm.trail ch' n s' := by
  induction n generalizing vm s s' with
  | zero => rfl
  | succ n ih =>
      obtain ⟨r, vm₁, s₁, s₁', hn, hn', hR₁⟩ := h.next hR vm
      rw [Machine.trail, Machine.trail, hn, hn']
      rcases r with _ | _ | _
      · rfl
      · rfl
      · exact congrArg (vm :: ·) (ih hR₁ vm₁)

theorem advanceFrom (h : Alike R ch ch') (hR : R s s') (n k : Nat) (events : Array Event)
    (vm : Machine) : Run.Like R (Machine.advanceFrom ch n k events vm s)
      (Machine.advanceFrom ch' n k events vm s') := by
  induction n generalizing k events vm s s' with
  | zero => exact ⟨rfl, rfl, rfl, rfl, hR⟩
  | succ n ih =>
      obtain ⟨r, vm₁, s₁, s₁', hn, hn', hR₁⟩ := h.next hR vm
      rw [Machine.advanceFrom_succ, Machine.advanceFrom_succ, hn, hn',
        Machine.event?_step ch' ch s' s]
      rcases r with f | _ | _
      · exact ⟨rfl, rfl, rfl, rfl, hR₁⟩
      · exact ⟨rfl, rfl, rfl, rfl, hR₁⟩
      · exact ih hR₁ ..

theorem conclude (h : Alike R ch ch') {r : Run σ} {r' : Run τ} (hr : Run.Like R r r') :
    Run.Like R (Machine.conclude ch r) (Machine.conclude ch' r') := by
  obtain ⟨o, vm, s, k, events⟩ := r
  obtain ⟨o', vm', s', k', events'⟩ := r'
  obtain ⟨rfl, rfl, rfl, rfl, hR⟩ := hr
  cases o with
  | finished =>
      obtain ⟨hanswer, hflush⟩ := h.flush vm.ip hR
      simp only [Machine.conclude]
      rcases hf : Machine.flush ch vm.ip s with ⟨f | _, s₁⟩
      · rcases hf' : Machine.flush ch' vm.ip s' with ⟨f' | _, s₁'⟩
        · rw [hf, hf'] at hanswer hflush
          cases hanswer
          exact ⟨rfl, rfl, rfl, rfl, hflush⟩
        · rw [hf, hf'] at hanswer
          cases hanswer
      · rcases hf' : Machine.flush ch' vm.ip s' with ⟨f' | _, s₁'⟩
        · rw [hf, hf'] at hanswer
          cases hanswer
        · rw [hf, hf'] at hflush
          exact ⟨rfl, rfl, rfl, rfl, hflush⟩
  | failed f => exact ⟨rfl, rfl, rfl, rfl, hR⟩
  | unfinished => exact ⟨rfl, rfl, rfl, rfl, hR⟩

/-- **Between streams that answer alike a machine makes the same run.** -/
theorem run (h : Alike R ch ch') (hR : R s s') (limit : Nat) (vm : Machine) :
    Run.Like R (vm.run ch limit s) (vm.run ch' limit s') :=
  h.conclude (h.advanceFrom hR ..)

end Channels.Alike

end TapeMachine
