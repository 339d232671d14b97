import TapeMachine.Proofs.Machine.Lockstep
import TapeMachine.Proofs.Tape.Symmetry

/-!
# Differences that are not seen

Of its tape a machine sees the current cell and nothing else, and it changes the current cell and
the pointer. So two tapes may differ without its taking notice: `Unseen P K` says that the tapes of
a relation `K` have the same current cell and stay in it, whatever the next operation does to both,
for as long as the machine meets `P`. Then a machine and **the same machine on the other tape go in
lockstep** (`Unseen.lockstep`), with the same streams.

Which difference it is, and under which condition it stays unseen, is left to the modules that use
this.
-/

namespace TapeMachine.Machine

variable {σ : Type} {ch : Channels σ} {P : Machine → Prop} {K : Tape → Tape → Prop} {vm : Machine}
  {t u : Tape} {s s' : σ}

/-- A machine that meets `P` does not see which of two related tapes it is on, and its operations
    keep the tapes related. -/
structure Unseen (P : Machine → Prop) (K : Tape → Tape → Prop) : Prop where
  onTape   : ∀ {t u}, K t u → t.OnTape ∧ u.OnTape
  current  : ∀ {vm u}, K vm.tape u → P vm → u.current = vm.tape.current
  set      : ∀ {vm u}, K vm.tape u → P vm → ∀ (ht : vm.tape.OnTape) (hu : u.OnTape) (v : UInt8),
    K (vm.tape.set ht.index v) (u.set hu.index v)
  next     : ∀ {vm u}, K vm.tape u → P vm → vm.fetch = some (.operation .next) →
    K vm.tape.moveNext u.moveNext
  previous : ∀ {vm u}, K vm.tape u → P vm → vm.fetch = some (.operation .previous) →
    K vm.tape.movePrevious u.movePrevious

/-- The second machine is the first one on another tape, with the same streams. -/
def OnAnother (K : Tape → Tape → Prop) (c c' : Machine × σ) : Prop :=
  ∃ u, K c.1.tape u ∧ c' = (c.1.moved c.1.ip u, c.2)

namespace Unseen

theorem get_index (h : Unseen P K) (hK : K vm.tape u) (hP : P vm) (ht : vm.tape.OnTape)
    (hu : u.OnTape) : u.get hu.index = vm.tape.get ht.index := by
  have hcurrent := h.current hK hP
  rw [hu.current_eq, ht.current_eq] at hcurrent
  exact Except.ok.inj hcurrent

/-- An elementary operation that succeeds on one tape does the same to the other. -/
theorem perform_ok {op : Elementary} (h : Unseen P K) (hK : K vm.tape u) (hP : P vm)
    (hf : vm.fetch = some (.operation op.toOperation))
    (hp : op.perform ch vm.ip vm.tape s = (.ok t, s')) :
    ∃ u', op.perform ch vm.ip u s = (.ok u', s') ∧ K t u' := by
  obtain ⟨ht, hu⟩ := h.onTape hK
  have hget := h.get_index hK hP ht hu
  have hcase := Elementary.performCase ch vm.ip ht s op
  rw [hp] at hcase
  cases hcase with
  | increment =>
      refine ⟨_, Elementary.perform_increment hu ch vm.ip s, ?_⟩
      rw [hget]
      exact h.set hK hP ht hu _
  | decrement =>
      refine ⟨_, Elementary.perform_decrement hu ch vm.ip s, ?_⟩
      rw [hget]
      exact h.set hK hP ht hu _
  | next => exact ⟨_, rfl, h.next hK hP hf⟩
  | previous => exact ⟨_, rfl, h.previous hK hP hf⟩
  | read chunk v s' hr hv =>
      refine ⟨_, ?_, h.set hK hP ht hu (UInt8.ofInt v)⟩
      rw [Elementary.perform_input, hr]
      dsimp only
      rw [hv]
      dsimp only
      rw [hu.write_eq]
      rfl
  | written report s' hw hz =>
      refine ⟨_, ?_, hK⟩
      rw [Elementary.perform_output hu, hget, hw]
      dsimp only
      rw [hz]
      rfl

/-- One that fails on one tape fails on the other. -/
theorem perform_error {op : Elementary} {f : Fault} (h : Unseen P K) (hK : K vm.tape u) (hP : P vm)
    (hp : op.perform ch vm.ip vm.tape s = (.error f, s')) :
    op.perform ch vm.ip u s = (.error f, s') := by
  obtain ⟨ht, hu⟩ := h.onTape hK
  have hget := h.get_index hK hP ht hu
  have hcase := Elementary.performCase ch vm.ip ht s op
  rw [hp] at hcase
  cases hcase with
  | misfit chunk e s' hr hv =>
      rw [Elementary.perform_input, hr]
      dsimp only
      rw [hv]
  | exhausted chunk s' hr hv =>
      rw [Elementary.perform_input, hr]
      dsimp only
      rw [hv]
  | unreadable e s' hr => rw [Elementary.perform_input, hr]
  | refused report s' hw hz =>
      rw [Elementary.perform_output hu, hget, hw]
      dsimp only
      rw [hz]
      rfl
  | unwritable e s' hw => rw [Elementary.perform_output hu, hget, hw]

/-- **A step on either tape** has the same result and leaves the same but for the tapes, which are
    still related. -/
theorem next_eq (h : Unseen P K) (hK : K vm.tape u) (hP : P vm) (ch : Channels σ) (s : σ) :
    ∃ r vm₁ s₁ u₁, vm.next ch s = (r, vm₁, s₁) ∧ K vm₁.tape u₁
      ∧ (vm.moved vm.ip u).next ch s = (r, vm₁.moved vm₁.ip u₁, s₁) := by
  obtain ⟨ht, hu⟩ := h.onTape hK
  have hu' : (vm.moved vm.ip u).tape.OnTape := hu
  have hcurrent {b : UInt8} (hc : vm.tape.current = .ok b) :
      (vm.moved vm.ip u).tape.current = .ok b := (h.current hK hP).trans hc
  have hcase := stepCase ht ch s
  generalize hn : vm.next ch s = r at hcase
  cases hcase with
  | ended hf => exact ⟨_, _, _, u, rfl, hK, next_of_fetch_eq_none hf⟩
  | performed op t s' hf hp =>
      obtain ⟨u', hp', hK'⟩ := h.perform_ok hK hP hf hp
      refine ⟨_, _, _, u', rfl, hK', ?_⟩
      rw [next_elementary hu' hf, moved_ip, moved_tape, hp']
      rfl
  | refused op f s' hf hp =>
      refine ⟨_, _, _, u, rfl, hK, ?_⟩
      rw [next_elementary hu' hf, moved_ip, moved_tape, h.perform_error hK hP hp]
  | entered b hf hc hb => exact ⟨_, _, _, u, rfl, hK, next_enter hu' hf (hcurrent hc) hb⟩
  | skipped j hf hc hj =>
      refine ⟨_, _, _, u, rfl, hK, ?_⟩
      rw [next_skip hu' hf (hcurrent hc), moved_program, moved_ip, hj]
      rfl
  | endless hf hc hj =>
      refine ⟨_, _, _, u, rfl, hK, ?_⟩
      rw [next_skip hu' hf (hcurrent hc), moved_program, moved_ip, hj]
  | left hf hc => exact ⟨_, _, _, u, rfl, hK, next_leave hu' hf (hcurrent hc)⟩
  | repeated b i hf hc hb hi =>
      refine ⟨_, _, _, u, rfl, hK, ?_⟩
      rw [next_repeat hu' hf (hcurrent hc) hb, moved_program, moved_ip, hi]
      rfl
  | startless b hf hc hb hi =>
      refine ⟨_, _, _, u, rfl, hK, ?_⟩
      rw [next_repeat hu' hf (hcurrent hc) hb, moved_program, moved_ip, hi]
  | foreign x f hf hx =>
      rw [next_foreign_eq ht ch s hf hx] at hn
      cases hn
      exact ⟨_, _, _, u, rfl, hK, next_foreign_eq hu' ch s hf hx⟩

/-- **A machine on either tape**, in lockstep. -/
theorem lockstep (h : Unseen P K) (ch : Channels σ) :
    Lockstep ch ch (fun c => P c.1) id (OnAnother K) where
  result := by
    rintro ⟨vm, s⟩ _ ⟨u, hK, rfl⟩ hP
    obtain ⟨r, vm₁, s₁, u₁, hn, -, hn'⟩ := h.next_eq hK hP ch s
    rw [hn, hn', mapError_id]
  kept := by
    rintro ⟨vm, s⟩ _ ⟨u, hK, rfl⟩ hP
    obtain ⟨r, vm₁, s₁, u₁, hn, hK₁, hn'⟩ := h.next_eq hK hP ch s
    rw [hn, hn']
    exact ⟨u₁, hK₁, rfl⟩

end Unseen

/-- A flush has nothing to do with the tape. -/
theorem flushAlike_onAnother (ch : Channels σ) (K : Tape → Tape → Prop) :
    FlushAlike ch ch id (OnAnother K) where
  result := by
    rintro ⟨vm, s⟩ _ ⟨u, -, rfl⟩
    rw [moved_ip, mapError_id]
  kept := by
    rintro ⟨vm, s⟩ _ ⟨u, hK, rfl⟩
    exact ⟨u, hK, rfl⟩

end TapeMachine.Machine
