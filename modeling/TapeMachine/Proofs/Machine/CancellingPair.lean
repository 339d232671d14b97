import TapeMachine.Proofs.Bracket.Insertion
import TapeMachine.Proofs.Machine.Composition
import TapeMachine.Proofs.Machine.Stutter
import TapeMachine.Proofs.Tape.Symmetry

/-!
# Pairs that cancel

An operation and its opposite, right behind it, leave the tape as it was and the streams alone. Put
into a program they make two steps each time that their place is gone through, and nothing else
comes of them: **the program with the pair ends exactly if the program without it does, and leaves
the same behind** (`cancelling_pair_is_unobservable`), wherever the pair is put and whether or not
the brackets around it have partners.

The machine with the pair is one that falls behind: it stands before the pair when the other one has
just come to the element behind it (`beforePair`), and has caught up when it stands before that
element too (`behindPair`).
-/

namespace TapeMachine

namespace Tape

variable {t : Tape}

/-- A cell that gets the value it has stays as it was. -/
theorem set_get (i : Fin t.cells.size) : t.set i (t.get i) = t := by
  rw [set, get]
  congr 1
  exact Array.set_getElem_self i.isLt

namespace OnTape

/-- The current cell has the value that was put into it. -/
theorem get_set (h : t.OnTape) (v : UInt8) :
    (t.set h.index v).get (h.set h.index v).index = v := by
  have hcurrent := h.current_set v
  rw [(h.set h.index v).current_eq] at hcurrent
  exact Except.ok.inj hcurrent

/-- Of two values put into one cell the second stays. -/
theorem set_set (h : t.OnTape) (v w : UInt8) :
    (t.set h.index v).set (h.set h.index v).index w = t.set h.index w := by
  unfold Tape.set
  congr 1
  exact Array.set_set ..

/-- A move to the left undoes one to the right, also around the end of the tape. -/
theorem movePrevious_moveNext (h : t.OnTape) : t.moveNext.movePrevious = t := by
  rw [h.moveNext.movePrevious_eq, h.moveNext_eq, setPointer, setPointer]
  have hp : ((t.pointer + 1) % t.size - 1) % t.size = t.pointer := by
    rw [Int.emod_sub_emod, Int.add_sub_cancel]
    exact Within.emod_eq h
  exact congrArg t.setPointer hp

/-- A move to the right undoes one to the left. -/
theorem moveNext_movePrevious (h : t.OnTape) : t.movePrevious.moveNext = t := by
  rw [h.movePrevious.moveNext_eq, h.movePrevious_eq, setPointer, setPointer]
  have hp : ((t.pointer - 1) % t.size + 1) % t.size = t.pointer := by
    rw [Int.emod_add_emod, Int.sub_add_cancel]
    exact Within.emod_eq h
  exact congrArg t.setPointer hp

end OnTape

end Tape

-- ── The pair ─────────────────────────────────────────────────────────────────────

/-- The second of two operations takes back what the first one does. -/
inductive Operation.Cancels : Operation → Operation → Prop where
  | increment : Cancels .increment .decrement
  | decrement : Cancels .decrement .increment
  | next      : Cancels .next .previous
  | previous  : Cancels .previous .next

/-- One after the other, at whatever places, they leave tape and streams as they were. -/
theorem Operation.Cancels.perform {a b : Operation} (h : a.Cancels b) : ∃ e e' : Elementary,
    a = e.toOperation ∧ b = e'.toOperation ∧ ∀ {σ : Type} (ch : Channels σ) (i j : Nat) (t : Tape)
      (s : σ), t.OnTape → ∃ u, e.perform ch i t s = (.ok u, s) ∧ u.OnTape
        ∧ e'.perform ch j u s = (.ok t, s) := by
  cases h with
  | increment =>
      refine ⟨.increment, .decrement, rfl, rfl, fun ch i j t s hon => ?_⟩
      refine ⟨_, Elementary.perform_increment hon ch i s, hon.set .., ?_⟩
      rw [Elementary.perform_decrement (hon.set ..), hon.set_set, hon.get_set,
        UInt8.add_sub_cancel, Tape.set_get]
  | decrement =>
      refine ⟨.decrement, .increment, rfl, rfl, fun ch i j t s hon => ?_⟩
      refine ⟨_, Elementary.perform_decrement hon ch i s, hon.set .., ?_⟩
      rw [Elementary.perform_increment (hon.set ..), hon.set_set, hon.get_set,
        UInt8.sub_add_cancel, Tape.set_get]
  | next =>
      refine ⟨.next, .previous, rfl, rfl, fun ch i j t s hon => ?_⟩
      refine ⟨_, rfl, hon.moveNext, ?_⟩
      rw [Elementary.perform, hon.movePrevious_moveNext]
  | previous =>
      refine ⟨.previous, .next, rfl, rfl, fun ch i j t s hon => ?_⟩
      refine ⟨_, rfl, hon.movePrevious, ?_⟩
      rw [Elementary.perform, hon.moveNext_movePrevious]

/-- Neither operation of a cancelling pair is a bracket. -/
theorem Operation.Cancels.ne_bracket {a b : Operation} (h : a.Cancels b) :
    (Element.operation a ≠ .opening ∧ Element.operation a ≠ .closing)
      ∧ (Element.operation b ≠ .opening ∧ Element.operation b ≠ .closing) := by
  cases h <;> exact ⟨⟨nofun, nofun⟩, ⟨nofun, nofun⟩⟩

namespace Machine

variable {σ : Type} {ch : Channels σ} {vm : Machine} {s : σ} {p : Program} {k : Nat}
  {a b : Operation}

-- ── The machine in the longer program ────────────────────────────────────────────

/-- The machine in another program, with its place counted in another way. -/
def renumbered (vm : Machine) (P : Program) (g : Nat → Nat) : Machine :=
  { vm with program := P, ip := g vm.ip }

@[simp] theorem renumbered_program (P : Program) (g : Nat → Nat) :
    (vm.renumbered P g).program = P := rfl

@[simp] theorem renumbered_ip (P : Program) (g : Nat → Nat) :
    (vm.renumbered P g).ip = g vm.ip := rfl

@[simp] theorem renumbered_tape (P : Program) (g : Nat → Nat) :
    (vm.renumbered P g).tape = vm.tape := rfl

@[simp] theorem renumbered_tracing (P : Program) (g : Nat → Nat) :
    (vm.renumbered P g).tracing = vm.tracing := rfl

/-- Where a machine stands that has come to an element, and to the pair first if the pair is right
    before it. -/
def beforePair (k i : Nat) : Nat :=
  if k < i then i + 2 else i

/-- Right behind an element is where the next one or the pair is. -/
theorem behindPair_add_one (k i : Nat) :
    Program.behindPair k i + 1 = beforePair k (i + 1) := by
  unfold Program.behindPair beforePair
  split <;> split <;> omega

/-- Only at the pair itself do the two renumberings differ. -/
theorem beforePair_of_ne {i : Nat} (h : i ≠ k) : beforePair k i = Program.behindPair k i := by
  unfold Program.behindPair beforePair
  split <;> split <;> omega

/-- How the place is counted after a step: one that executes something comes to another element. -/
def placing (k : Nat) : Except Fault Bool → Nat → Nat
  | .ok true => beforePair k
  | _        => Program.behindPair k

/-- The renumbered machine is about to execute the same element. -/
theorem fetch_behindPair {x y : Element} (hk : k ≤ vm.program.size) :
    (vm.renumbered (vm.program.insertPair k x y) (Program.behindPair k)).fetch = vm.fetch := by
  rw [fetch, fetch, renumbered_program, renumbered_ip, Program.getElem?_behindPair hk]

/-- A step that leaves the tape alone and goes on behind an element. -/
theorem moved_renumbered (P : Program) (i : Nat) :
    (vm.renumbered P (Program.behindPair k)).moved (Program.behindPair k i + 1) vm.tape
      = (vm.moved (i + 1) vm.tape).renumbered P (beforePair k) := by
  rw [behindPair_add_one]
  rfl

/-- **A step on an element is the same in the program with the pair**, but for the places. -/
theorem next_renumbered (h : a.Cancels b) (hk : k ≤ vm.program.size) (hon : vm.tape.OnTape)
    (ch : Channels σ) (s : σ) :
    (vm.renumbered (vm.program.insertPair k (.operation a) (.operation b))
        (Program.behindPair k)).next ch s
      = ((vm.next ch s).1.mapError (·.mapPlace (Program.behindPair k)),
        (vm.next ch s).2.1.renumbered (vm.program.insertPair k (.operation a) (.operation b))
          (placing k (vm.next ch s).1), (vm.next ch s).2.2) := by
  obtain ⟨ha, hb⟩ := h.ne_bracket
  generalize hP : vm.program.insertPair k (.operation a) (.operation b) = P
  have hfetch {x : Option Element} (hf : vm.fetch = x) :
      (vm.renumbered P (Program.behindPair k)).fetch = x := by
    rw [← hP, fetch_behindPair hk, hf]
  have hright {o : Option Nat} (hf : vm.fetch = some .opening)
      (ho : vm.program.partnerRight vm.ip = o) :
      P.partnerRight (Program.behindPair k vm.ip) = o.map (Program.behindPair k) := by
    rw [← hP, Program.partnerRight_insertPair ha hb hk (getElem?_of_fetch hf), ho]
  have hleft {o : Option Nat} (hf : vm.fetch = some .closing)
      (ho : vm.program.partnerLeft vm.ip = o) :
      P.partnerLeft (Program.behindPair k vm.ip) = o.map (Program.behindPair k) := by
    rw [← hP, Program.partnerLeft_insertPair ha hb hk (getElem?_of_fetch hf), ho]
  have hon' : (vm.renumbered P (Program.behindPair k)).tape.OnTape := hon
  have hcase := stepCase hon ch s
  generalize hn : vm.next ch s = r at hcase
  cases hcase with
  | ended hf => exact next_of_fetch_eq_none (hfetch hf)
  | performed op t s' hf hp =>
      rw [next_elementary hon' (hfetch hf), renumbered_ip, renumbered_tape,
        op.perform_mapPlace ch (Program.behindPair k), hp, behindPair_add_one]
      rfl
  | refused op f s' hf hp =>
      rw [next_elementary hon' (hfetch hf), renumbered_ip, renumbered_tape,
        op.perform_mapPlace ch (Program.behindPair k), hp]
      rfl
  | entered b hf hc hb =>
      rw [next_enter hon' (hfetch hf) hc hb]
      rw [renumbered_ip, renumbered_tape, moved_renumbered]
      rfl
  | skipped j hf hc hj =>
      rw [next_skip hon' (hfetch hf) hc, renumbered_program, renumbered_ip, hright hf hj]
      rw [Option.map_some]
      dsimp only
      rw [renumbered_tape, moved_renumbered]
      rfl
  | endless hf hc hj =>
      rw [next_skip hon' (hfetch hf) hc, renumbered_program, renumbered_ip, hright hf hj]
      rfl
  | left hf hc =>
      rw [next_leave hon' (hfetch hf) hc]
      rw [renumbered_ip, renumbered_tape, moved_renumbered]
      rfl
  | repeated b i hf hc hb hi =>
      rw [next_repeat hon' (hfetch hf) hc hb, renumbered_program, renumbered_ip, hleft hf hi]
      rw [Option.map_some]
      dsimp only
      rw [renumbered_tape, moved_renumbered]
      rfl
  | startless b hf hc hb hi =>
      rw [next_repeat hon' (hfetch hf) hc hb, renumbered_program, renumbered_ip, hleft hf hi]
      rfl
  | foreign x f hf hx =>
      rw [next_foreign_eq hon ch s hf hx] at hn
      cases hn
      rw [next_foreign_eq hon' ch s (hfetch hf) hx, renumbered_tracing]
      cases x <;> cases vm.tracing <;> rfl

/-- The two steps of the pair come to the element behind it, on the same tape. -/
theorem after_pair (h : a.Cancels b) (hk : k ≤ vm.program.size) (hon : vm.tape.OnTape)
    (hip : vm.ip = k) (ch : Channels σ) (s : σ) :
    (vm.renumbered (vm.program.insertPair k (.operation a) (.operation b)) (beforePair k)).after
        ch 2 s
      = some (vm.renumbered (vm.program.insertPair k (.operation a) (.operation b))
        (Program.behindPair k), s) := by
  obtain ⟨e, e', rfl, rfl, hperform⟩ := h.perform
  subst hip
  obtain ⟨u, he, hu, he'⟩ := hperform ch vm.ip (vm.ip + 1) vm.tape s hon
  have hbefore : beforePair vm.ip vm.ip = vm.ip := if_neg (Nat.lt_irrefl _)
  have hbehind : Program.behindPair vm.ip vm.ip = vm.ip + 2 :=
    Program.behindPair_of_le (Nat.le_refl _)
  rw [renumbered, renumbered, hbefore, hbehind]
  generalize hP : vm.program.insertPair vm.ip (.operation e.toOperation)
    (.operation e'.toOperation) = P
  -- the machine before the pair, and the one in the middle of it
  let vm₀ : Machine := { vm with program := P }
  let vm₁ : Machine := { vm with program := P, ip := vm.ip + 1, tape := u }
  have hfirst : vm₀.fetch = some (.operation e.toOperation) := by
    refine fetch_operation ?_
    show P[vm.ip]? = _
    rw [← hP, Program.getElem?_insertPair_first hk]
  have hsecond : vm₁.fetch = some (.operation e'.toOperation) := by
    refine fetch_operation ?_
    show P[vm.ip + 1]? = _
    rw [← hP, Program.getElem?_insertPair_second hk]
  have hon₀ : vm₀.tape.OnTape := hon
  have hon₁ : vm₁.tape.OnTape := hu
  have hn : vm₀.next ch s = (.ok true, vm₁, s) := by
    rw [next_elementary hon₀ hfirst, he]
    rfl
  have hn' : vm₁.next ch s = (.ok true, { vm with program := P, ip := vm.ip + 2 }, s) := by
    rw [next_elementary hon₁ hsecond, he']
    rfl
  rw [after_succ_of_ok hn, after_succ_of_ok hn', after_zero]

-- ── Both machines ────────────────────────────────────────────────────────────────

/-- The second machine is the first one in the program `P`, with its place counted in another way,
    with the same streams. -/
def Renumbered (p P : Program) (g : Nat → Nat) (c c' : Machine × σ) : Prop :=
  c.1.program = p ∧ c.1.tape.OnTape ∧ c' = (c.1.renumbered P g, c.2)

/-- The machine in the program with the pair catches up with the one in the program without it. -/
theorem follows_insertPair (h : a.Cancels b) (hk : k ≤ p.size) (ch : Channels σ) :
    Follows ch ch (·.mapPlace (Program.behindPair k))
      (Renumbered p (p.insertPair k (.operation a) (.operation b)) (beforePair k))
      (Renumbered p (p.insertPair k (.operation a) (.operation b)) (Program.behindPair k)) where
  catchesUp := by
    rintro ⟨vm, s⟩ _ ⟨rfl, hon, rfl⟩
    by_cases hip : vm.ip = k
    · exact ⟨2, _, after_pair h hk hon hip ch s, rfl, hon, rfl⟩
    · refine ⟨0, _, rfl, rfl, hon, ?_⟩
      rw [renumbered, renumbered, beforePair_of_ne hip]
  result := by
    rintro ⟨vm, s⟩ _ ⟨rfl, hon, rfl⟩
    rw [next_renumbered h hk hon]
  goesOn := by
    rintro ⟨vm, s⟩ _ ⟨rfl, hon, rfl⟩ hok
    rw [next_renumbered h hk hon, hok]
    exact ⟨program_next ch vm s, onTape_next hon ch s, rfl⟩
  stays := by
    rintro ⟨vm, s⟩ _ ⟨rfl, hon, rfl⟩ hstop
    rw [next_renumbered h hk hon]
    refine ⟨program_next ch vm s, onTape_next hon ch s, ?_⟩
    rcases hr : (vm.next ch s).1 with f | _ | _
    · rfl
    · rfl
    · exact absurd hr hstop

/-- A flush tells its place and has to do with nothing else of the machine. -/
theorem flushAlike_renumbered (p P : Program) (g : Nat → Nat) (ch : Channels σ) :
    FlushAlike ch ch (·.mapPlace g) (Renumbered p P g) where
  result := by
    rintro ⟨vm, s⟩ _ ⟨-, -, rfl⟩
    rw [renumbered_ip, flush_mapPlace]
  kept := by
    rintro ⟨vm, s⟩ _ ⟨hp, hon, rfl⟩
    rw [renumbered_ip, flush_mapPlace]
    exact ⟨hp, hon, rfl⟩

/-- Two machines with the same tape and streams, the second one at the place that `g` tells. -/
structure AlikeButPlaces (g : Nat → Nat) (c c' : Machine × σ) : Prop where
  ip      : c'.1.ip = g c.1.ip
  tape    : c'.1.tape = c.1.tape
  streams : c'.2 = c.2

/-- **A pair that cancels is not observable.** Put into a program anywhere, it changes neither
    whether a run ends nor how, neither the calls to the streams nor the tape that is left; and the
    place where a run ends or fails is that of the same element. -/
theorem cancelling_pair_is_unobservable {σ : Type} (a b : Operation) (h : a.Cancels b) (p : Program)
    (k : Nat) (hk : k ≤ p.size) (vm : Machine) (ch : Channels σ) (s : σ) :
    SameEnd (AlikeButPlaces fun i => if k ≤ i then i + 2 else i)
      (·.mapPlace fun i => if k ≤ i then i + 2 else i) ch.recorded ch.recorded (vm.load p)
      (vm.load (p.insertPair k (.operation a) (.operation b))) (s, #[]) (s, #[]) := by
  refine ((follows_insertPair h hk ch.recorded).sameEnd (flushAlike_renumbered ..)
    ⟨rfl, Tape.onTape_reset, rfl⟩).mono ?_
  rintro c _ ⟨-, -, rfl⟩
  exact ⟨rfl, rfl, rfl⟩

/-- A move and the move back, right behind an opening bracket, in a program whose last bracket has
    no partner. -/
theorem moves_behind_opening_bracket :
    let p : Program := .ofOperations
      [.increment, .loopForward, .decrement, .loopBack, .increment, .loopBack]
    let vm := fresh 1 Nat.one_pos true
    (Operation.Cancels .previous .next ∧ 2 ≤ p.size)
    ∧ SameEnd (AlikeButPlaces fun i => if 2 ≤ i then i + 2 else i)
        (·.mapPlace fun i => if 2 ≤ i then i + 2 else i) Channels.prepared.recorded
        Channels.prepared.recorded (vm.load p)
        (vm.load (p.insertPair 2 (.operation .previous) (.operation .next))) ({}, #[]) ({}, #[]) :=
  ⟨⟨.previous, by decide⟩,
    cancelling_pair_is_unobservable .previous .next .previous _ 2 (by decide) _ _ _⟩

end Machine

end TapeMachine
