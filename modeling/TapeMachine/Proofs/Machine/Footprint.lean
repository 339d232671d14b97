import TapeMachine.Proofs.Machine.Unseen

/-!
# Footprints

The cells that a machine visits are its footprint, and which ones these are depends on what it finds
in them. Still, **the footprint is all there is to the tape**: on two tapes that agree on the cells
that are visited on one of them, a machine does the same, and so it visits the same cells on both.
Every other cell is neither read nor written (`read_next_of_ne`), for however many steps.

The calls for a step are counted whether they succeed or not: a step that fails is made again by the
next call, and still moves nothing.
-/

namespace TapeMachine

/-- Two tapes with the pointer at the same cell that agree on some of their cells. -/
structure Tape.AgreeOn (V : Int → Prop) (t u : Tape) : Prop where
  onTape  : t.OnTape
  size    : u.size = t.size
  pointer : u.pointer = t.pointer
  cells   : ∀ a, Tape.Within t.size a → V a → u.read (some a) = t.read (some a)

namespace Tape.AgreeOn

variable {V : Int → Prop} {t u : Tape}

/-- The pointer of the one tape is that of the other, so it is on either. -/
theorem onTape_right (h : t.AgreeOn V u) : u.OnTape := by
  show Tape.Within u.size u.pointer
  rw [h.size, h.pointer]
  exact h.onTape

/-- Tapes that agree where the pointer stands have the same current cell. -/
theorem current (h : t.AgreeOn V u) (hp : V t.pointer) : u.current = t.current := by
  rw [Tape.current_eq_read, Tape.current_eq_read, h.pointer]
  exact h.cells t.pointer h.onTape hp

/-- Tapes that agree still do when both get the same value under the pointer. -/
theorem set (h : t.AgreeOn V u) (v : UInt8) :
    (t.set h.onTape.index v).AgreeOn V (u.set h.onTape_right.index v) where
  onTape  := h.onTape.set _ v
  size    := by
    rw [Tape.size_set, Tape.size_set]
    exact h.size
  pointer := h.pointer
  cells   := by
    intro a ha hV
    rw [Tape.size_set] at ha
    have ha' : Tape.Within u.size a := by
      rw [h.size]
      exact ha
    rw [h.onTape.read_set v ha, h.onTape_right.read_set v ha', h.pointer, h.cells a ha hV]

/-- Tapes that agree still do when both pointers go to one place. -/
theorem setPointer (h : t.AgreeOn V u) {p : Int} (hp : Tape.Within t.size p) :
    (t.setPointer p).AgreeOn V (u.setPointer p) where
  onTape  := hp
  size    := h.size
  pointer := rfl
  cells   := by
    intro a ha hV
    rw [Tape.read_setPointer, Tape.read_setPointer]
    exact h.cells a ha hV

/-- Tapes that agree still do after a move to the right. -/
theorem moveNext (h : t.AgreeOn V u) : t.moveNext.AgreeOn V u.moveNext := by
  rw [h.onTape.moveNext_eq, h.onTape_right.moveNext_eq, h.pointer, h.size]
  exact h.setPointer (Tape.within_emod t.size_pos _)

/-- Tapes that agree still do after a move to the left. -/
theorem movePrevious (h : t.AgreeOn V u) : t.movePrevious.AgreeOn V u.movePrevious := by
  rw [h.onTape.movePrevious_eq, h.onTape_right.movePrevious_eq, h.pointer, h.size]
  exact h.setPointer (Tape.within_emod t.size_pos _)

end Tape.AgreeOn

namespace Machine

variable {σ : Type} {ch : Channels σ} {vm : Machine} {c c' : Machine × σ} {V : Int → Prop} {a : Int}
  {m n : Nat}

-- ── Cells that are visited ───────────────────────────────────────────────────────

/-- While it visits cells of `V` only, a machine does not see how two tapes differ in the others. -/
theorem unseen_outside (V : Int → Prop) :
    Unseen (fun vm => V vm.tape.pointer) (Tape.AgreeOn V) where
  onTape   := fun h => ⟨h.onTape, h.onTape_right⟩
  current  := fun h hp => h.current hp
  set      := fun h _ _ _ v => h.set v
  next     := fun h _ _ => h.moveNext
  previous := fun h _ _ => h.movePrevious

/-- Machine and streams after so many calls for a step. -/
abbrev called (ch : Channels σ) (c : Machine × σ) (n : Nat) : Machine × σ :=
  obeyAll ch c (List.replicate n .step)

/-- The pointer is at `a` at some moment of `n` calls for a step, before the first of them and after
    the last one too. -/
def Visits (ch : Channels σ) (c : Machine × σ) (n : Nat) (a : Int) : Prop :=
  ∃ m ≤ n, (called ch c m).1.tape.pointer = a

/-- The cell under the pointer is visited before anything is done. -/
theorem visits_zero (ch : Channels σ) (c : Machine × σ) (n : Nat) :
    Visits ch c n c.1.tape.pointer :=
  ⟨0, Nat.zero_le n, rfl⟩

/-- No calls for a step change the number of cells. -/
theorem size_called (ch : Channels σ) (c : Machine × σ) (n : Nat) :
    (called ch c n).1.tape.size = c.1.tape.size := by
  induction n generalizing c with
  | zero => rfl
  | succ n ih => exact (ih _).trans (size_next ch c.1 c.2)

/-- No calls for a step take the pointer off the tape. -/
theorem onTape_called (hon : c.1.tape.OnTape) (ch : Channels σ) (n : Nat) :
    (called ch c n).1.tape.OnTape := by
  induction n generalizing c with
  | zero => exact hon
  | succ n ih => exact ih (onTape_next hon ch c.2)

/-- What is visited are cells of the tape. -/
theorem Visits.within (h : Visits ch c n a) (hon : c.1.tape.OnTape) :
    Tape.Within c.1.tape.size a := by
  obtain ⟨m, -, rfl⟩ := h
  rw [← size_called ch c m]
  exact onTape_called hon ch m

/-- What is visited after the first call is visited. -/
theorem Visits.succ (h : Visits ch (c.1.next ch c.2).2 n a) : Visits ch c (n + 1) a := by
  obtain ⟨m, hm, ha⟩ := h
  exact ⟨m + 1, Nat.succ_le_succ hm, ha⟩

-- ── Cells that are not ───────────────────────────────────────────────────────────

/-- **A step leaves every cell alone but the current one.** -/
theorem read_next_of_ne (hon : vm.tape.OnTape) (ha : Tape.Within vm.tape.size a)
    (hne : a ≠ vm.tape.pointer) (ch : Channels σ) (s : σ) :
    (vm.next ch s).2.1.tape.read (some a) = vm.tape.read (some a) := by
  have hset (v : UInt8) : (vm.tape.set hon.index v).read (some a) = vm.tape.read (some a) := by
    rw [hon.read_set v ha, if_neg hne]
  have hcase := stepCase hon ch s
  generalize vm.next ch s = r at hcase
  cases hcase with
  | performed op t s' hf hp =>
      have hperform := Elementary.performCase ch vm.ip hon s op
      rw [hp] at hperform
      cases hperform with
      | increment => exact hset _
      | decrement => exact hset _
      | next =>
          show vm.tape.moveNext.read (some a) = _
          rw [hon.moveNext_eq, Tape.read_setPointer]
      | previous =>
          show vm.tape.movePrevious.read (some a) = _
          rw [hon.movePrevious_eq, Tape.read_setPointer]
      | read => exact hset _
      | written => rfl
  | _ => rfl

/-- A cell that is not visited holds what it held. -/
theorem read_called_of_not_visits (hon : c.1.tape.OnTape) (ha : Tape.Within c.1.tape.size a)
    (h : ¬ Visits ch c n a) : (called ch c n).1.tape.read (some a) = c.1.tape.read (some a) := by
  induction n generalizing c with
  | zero => rfl
  | succ n ih =>
      have hne : a ≠ c.1.tape.pointer := fun heq => h (heq ▸ visits_zero ch c _)
      have ha' : Tape.Within (c.1.next ch c.2).2.1.tape.size a := by
        rw [size_next]
        exact ha
      have hrest := ih (onTape_next hon ch c.2) ha' fun hv => h hv.succ
      exact hrest.trans (read_next_of_ne hon ha hne ch c.2)

-- ── Two tapes ────────────────────────────────────────────────────────────────────

/-- Two machines cannot be told apart by what they are about to do. -/
structure LookAlike (ch : Channels σ) (c c' : Machine × σ) : Prop where
  ip      : c'.1.ip = c.1.ip
  pointer : c'.1.tape.pointer = c.1.tape.pointer
  current : c'.1.tape.current = c.1.tape.current
  streams : c'.2 = c.2
  /-- The next step comes to the same. -/
  result  : (c'.1.step ch c'.2).result = (c.1.step ch c.2).result

/-- What `n` calls for a step do on two tapes. -/
structure Framed (ch : Channels σ) (n : Nat) (c c' : Machine × σ) : Prop where
  /-- The two machines are at no moment to be told apart. -/
  alike  : ∀ m ≤ n, LookAlike ch (called ch c m) (called ch c' m)
  /-- In the end the tapes agree on the cells that were visited. -/
  agree  : ∀ a, Visits ch c n a →
    (called ch c' n).1.tape.read (some a) = (called ch c n).1.tape.read (some a)
  /-- The other cells of either tape are what they were on it. -/
  kept   : ∀ a, Tape.Within c.1.tape.size a → ¬ Visits ch c n a →
    (called ch c n).1.tape.read (some a) = c.1.tape.read (some a)
    ∧ (called ch c' n).1.tape.read (some a) = c'.1.tape.read (some a)

/-- Machines on tapes that agree where the pointer stands cannot be told apart by a step. -/
theorem OnAnother.lookAlike (h : OnAnother (Tape.AgreeOn V) c c') (hp : V c.1.tape.pointer)
    (ch : Channels σ) : LookAlike ch c c' := by
  have hresult := ((unseen_outside V).lockstep ch).result h hp
  rw [mapError_id] at hresult
  obtain ⟨u, hu, rfl⟩ := h
  exact ⟨rfl, hu.pointer, hu.current hp, rfl, hresult⟩

/-- Tapes that agree on a footprint frame what is done on them. -/
theorem framed_of_agreeOn (h : OnAnother (Tape.AgreeOn (Visits ch c n)) c c') :
    Framed ch n c c' := by
  have hbeside (m : Nat) (hm : m ≤ n) :
      OnAnother (Tape.AgreeOn (Visits ch c n)) (called ch c m) (called ch c' m) :=
    ((unseen_outside _).lockstep ch).obeyAll h fun i hi => ⟨i, by omega, rfl⟩
  have halike (m : Nat) (hm : m ≤ n) : LookAlike ch (called ch c m) (called ch c' m) :=
    (hbeside m hm).lookAlike ⟨m, hm, rfl⟩ ch
  obtain ⟨u, hu, rfl⟩ := h
  refine ⟨halike, ?_, ?_⟩
  · intro a hv
    obtain ⟨u', hu', heq⟩ := hbeside n (Nat.le_refl n)
    have ha : Tape.Within (called ch c n).1.tape.size a := by
      rw [size_called]
      exact hv.within hu.onTape
    rw [heq]
    exact hu'.cells a ha hv
  · intro a ha hv
    have hv' : ¬ Visits ch (c.1.moved c.1.ip u, c.2) n a := by
      rintro ⟨m, hm, hp⟩
      exact hv ⟨m, hm, (halike m hm).pointer.symm.trans hp⟩
    have ha' : Tape.Within u.size a := by
      rw [hu.size]
      exact ha
    exact ⟨read_called_of_not_visits hu.onTape ha hv,
      read_called_of_not_visits hu.onTape_right ha' hv'⟩

/-- **The cells that are visited are all that a machine takes notice of.** On two tapes that agree
    on what is visited on the first one, so many calls for a step do the same, however each of them
    ends; the tapes go on to agree there, and all their other cells are left as they were. -/
theorem footprint_frames {σ : Type} (ch : Channels σ) (p : Program) (ip : Nat) (tracing : Bool)
    (t u : Tape) (n : Nat) (s : σ) (hon : t.OnTape) (hsize : u.size = t.size)
    (hpointer : u.pointer = t.pointer)
    (hagree : ∀ a, Visits ch.recorded ({ program := p, ip, tape := t, tracing }, (s, #[])) n a →
      u.read (some a) = t.read (some a)) :
    Framed ch.recorded n ({ program := p, ip, tape := t, tracing }, (s, #[]))
      ({ program := p, ip, tape := u, tracing }, (s, #[])) :=
  framed_of_agreeOn ⟨u, ⟨hon, hsize, hpointer, fun a _ hv => hagree a hv⟩, rfl⟩

/-- A loop that clears the current cell and then reads into the next one, where there is nothing to
    read, on two tapes that differ in the cell on the left. -/
theorem footprint_of_two_cells :
    let t : Tape := { cells := #[5, 1, 9], pointer := 1, size_pos := by decide }
    let u : Tape := { cells := #[7, 1, 9], pointer := 1, size_pos := by decide }
    let p : Program := .ofOperations [.loopForward, .decrement, .loopBack, .next, .input]
    (t.OnTape ∧ u.size = t.size ∧ u.pointer = t.pointer
      ∧ ∀ a, Visits Channels.prepared.recorded ({ program := p, tape := t }, ({}, #[])) 6 a →
        u.read (some a) = t.read (some a))
    ∧ Framed Channels.prepared.recorded 6 ({ program := p, tape := t }, ({}, #[]))
        ({ program := p, tape := u }, ({}, #[])) := by
  intro t u p
  have hon : t.OnTape := ⟨by decide, by decide⟩
  have hleft : ∀ m < 7, (called Channels.prepared.recorded ({ program := p, tape := t }, ({}, #[]))
      m).1.tape.pointer ≠ 0 := by decide +kernel
  have hagree : ∀ a, Visits Channels.prepared.recorded ({ program := p, tape := t }, ({}, #[])) 6 a →
      u.read (some a) = t.read (some a) := by
    intro a hv
    obtain ⟨h0, h1⟩ : 0 ≤ a ∧ a < 3 := hv.within hon
    obtain ⟨m, hm, hp⟩ := hv
    have hne : a ≠ 0 := hp ▸ hleft m (Nat.lt_succ_of_le hm)
    have ha : a = 1 ∨ a = 2 := by omega
    rcases ha with rfl | rfl
    · rfl
    · rfl
  exact ⟨⟨hon, rfl, rfl, hagree⟩,
    footprint_frames .prepared p 0 false t u 6 {} hon rfl rfl hagree⟩

end Machine

end TapeMachine
