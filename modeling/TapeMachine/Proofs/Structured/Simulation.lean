import TapeMachine.Proofs.Bracket.Matching
import TapeMachine.Proofs.Machine.Reachable
import TapeMachine.Proofs.Structured.Evaluation
import TapeMachine.Proofs.Structured.Tree

/-!
# Trees and jumps

The machine knows nothing of trees: it jumps from bracket to bracket. Where a program holds the
operations of a tree, the jumps come to what the tree means.

* `comesTo_of_evaluates` — **what evaluation says is what the machine does**, by the rules of
  evaluation.
* `exists_evaluates` — a machine that stops somewhere has evaluated its block, by the number of
  operations it has executed.
* `implements_structured_loops` — whole runs, where both directions meet.

A loop is entered at either of its brackets: at the first one when it begins, at the second one when
its body is over. The two do the same there, so both are places to enter (`Entry`).
-/

namespace TapeMachine

namespace Program

variable {p : Program} {k : Nat} {op : Elementary} {b body rest : Block}

-- ── Blocks in a program ──────────────────────────────────────────────────────────

/-- The operations of a block stand in a program from place `k` on. -/
def Holds (p : Program) (k : Nat) (b : Block) : Prop :=
  p.stretch k b.length = b.elements

/-- A block stands where it begins, and what is left of it behind that. -/
theorem holds_basic_iff : p.Holds k (.basic op rest)
    ↔ p[k]? = some (.operation op.toOperation) ∧ p.Holds (k + 1) rest :=
  stretch_eq_cons_iff

/-- The parts of a loop that stands in a program. -/
theorem Holds.parts (h : p.Holds k (.loop body rest)) :
    p[k]? = some .opening ∧ p.Holds (k + 1) body ∧ p[k + 1 + body.length]? = some .closing
      ∧ p.Holds (k + body.length + 2) rest := by
  have hall : p.stretch k (body.length + (rest.length + 1) + 1)
      = .opening :: (body.elements ++ .closing :: rest.elements) := by
    rw [← Block.elements_loop]
    exact h
  obtain ⟨ho, htail⟩ := stretch_eq_cons_iff.mp hall
  obtain ⟨hbody, hback⟩ := stretch_eq_append body.length_elements htail
  obtain ⟨hc, hrest⟩ := stretch_eq_cons_iff.mp hback
  rw [show k + 1 + body.length + 1 = k + body.length + 2 by omega] at hrest
  exact ⟨ho, hbody, hc, hrest⟩

/-- The brackets of a loop belong together. -/
theorem Holds.matched (h : p.Holds k (.loop body rest)) : p.Matched k (k + 1 + body.length) := by
  obtain ⟨ho, hbody, hc, -⟩ := h.parts
  refine matched_iff.mpr ⟨ho, hc, ?_⟩
  rw [hbody]
  exact body.depthAfter_elements 0

theorem holds_ofOperations (b : Block) : (ofOperations b.flatten).Holds 0 b := by
  show (b.elements.drop 0).take b.length = b.elements
  rw [List.drop_zero, ← b.length_elements, List.take_length]

end Program

/-- What a run came to, put as evaluations are. -/
def Run.evaluation {σ : Type} (r : Run σ) : Evaluation σ :=
  ⟨r.outcome, r.machine.ip, r.machine.tape, r.streams⟩

theorem Run.evaluation_eq {σ : Type} {r : Run σ} {o : Outcome} {vm : Machine} {k : Nat} {t : Tape}
    {s : σ} (ho : r.outcome = o) (hm : r.machine = vm.moved k t) (hs : r.streams = s) :
    r.evaluation = ⟨o, k, t, s⟩ := by
  rw [evaluation, ho, hm, hs]
  rfl

namespace Machine

open Block

variable {σ : Type} {ch : Channels σ} {vm : Machine} {i j k k' m : Nat} {op : Elementary}
  {b body rest : Block} {t t' : Tape} {s s' : σ} {e : Evaluation σ}

-- ── Steps inside a block ─────────────────────────────────────────────────────────

theorem next_at_elementary (hon : t.OnTape)
    (hop : vm.program[k]? = some (.operation op.toOperation)) :
    (vm.moved k t).next ch s = match op.perform ch k t s with
      | (.ok t', s')   => (.ok true, vm.moved (k + 1) t', s')
      | (.error f, s') => (.error f, vm.moved k t, s') :=
  next_elementary hon (fetch_operation hop)

/-- A step on either of two brackets that belong together goes behind the second one if the current
    cell is zero, and behind the first one if it is not. -/
theorem next_at_bracket {c : UInt8} (hm : vm.program.Matched i j) (hon : t.OnTape)
    (hc : t.current = .ok c) (hk : k = i ∨ k = j) :
    (vm.moved k t).next ch s = (.ok true, vm.moved (if c = 0 then j + 1 else i + 1) t, s) := by
  have hon' : (vm.moved k t).tape.OnTape := hon
  rcases hk with rfl | rfl
  · have hf : (vm.moved k t).fetch = some .opening := fetch_operation hm.opens
    by_cases hz : c = 0
    · subst hz
      have hj : (vm.moved k t).program.partnerRight (vm.moved k t).ip = some j :=
        (Program.partnerRight_eq_some_iff hm.opens).mpr hm
      rw [next_skip hon' hf hc, hj, if_pos rfl]
      rfl
    · rw [next_enter hon' hf hc hz, if_neg hz]
      rfl
  · have hf : (vm.moved k t).fetch = some .closing := fetch_operation hm.closes
    by_cases hz : c = 0
    · subst hz
      rw [next_leave hon' hf hc, if_pos rfl]
      rfl
    · have hi : (vm.moved k t).program.partnerLeft (vm.moved k t).ip = some i :=
        (Program.partnerLeft_eq_some_iff hm.closes).mpr hm
      rw [next_repeat hon' hf hc hz, hi, if_neg hz]
      rfl

/-- The places at which a block that begins at `k` can be entered. -/
inductive Entry (k : Nat) : Block → Nat → Prop where
  | front (b : Block) : Entry k b k
  | back (body rest : Block) : Entry k (loop body rest) (k + 1 + body.length)

theorem Entry.eq_or_eq (hk : Entry k (loop body rest) k') : k' = k ∨ k' = k + 1 + body.length := by
  cases hk with
  | front => exact Or.inl rfl
  | back => exact Or.inr rfl

/-- A step at an entry of a loop leaves it if the current cell is zero. -/
theorem Entry.next_ended (hk : Entry k (loop body rest) k')
    (hb : vm.program.Holds k (loop body rest)) (hon : t.OnTape) (hc : t.current = .ok 0) :
    (vm.moved k' t).next ch s = (.ok true, vm.moved (k + body.length + 2) t, s) := by
  rw [next_at_bracket hb.matched hon hc hk.eq_or_eq, if_pos rfl,
    show k + 1 + body.length + 1 = k + body.length + 2 by omega]

theorem Entry.next_again {c : UInt8} (hk : Entry k (loop body rest) k')
    (hb : vm.program.Holds k (loop body rest)) (hon : t.OnTape) (hc : t.current = .ok c)
    (hz : c ≠ 0) : (vm.moved k' t).next ch s = (.ok true, vm.moved (k + 1) t, s) := by
  rw [next_at_bracket hb.matched hon hc hk.eq_or_eq, if_neg hz]

-- ── From evaluations to steps ────────────────────────────────────────────────────

/-- From place `k` on a tape and streams the machine comes to where an evaluation ended, and there
    it has the same streams if the evaluation succeeded, and fails the same way if it failed. -/
def ComesTo (ch : Channels σ) (vm : Machine) (k : Nat) (t : Tape) (s : σ) (e : Evaluation σ) :
    Prop :=
  ∃ m s', (vm.moved k t).after ch m s = some (vm.moved e.place e.tape, s') ∧
    match e.outcome with
    | .finished   => s' = e.streams
    | .failed f   =>
      (vm.moved e.place e.tape).next ch s' = (.error f, vm.moved e.place e.tape, e.streams)
    | .unfinished => False

/-- What a machine comes to behind some way, it comes to. -/
theorem ComesTo.of_after (ha : (vm.moved k t).after ch m s = some (vm.moved k' t', s'))
    (h : vm.ComesTo ch k' t' s' e) : vm.ComesTo ch k t s e := by
  obtain ⟨n, s'', hn, hend⟩ := h
  exact ⟨m + n, s'', after_trans ha hn, hend⟩

theorem ComesTo.of_next (hn : (vm.moved k t).next ch s = (.ok true, vm.moved k' t', s'))
    (h : vm.ComesTo ch k' t' s' e) : vm.ComesTo ch k t s e :=
  h.of_after (after_succ_of_ok hn 0)

/-- **What the evaluation of a block comes to, the machine comes to**, at whichever place it enters
    the block. -/
theorem comesTo_of_evaluates (h : Evaluates ch k b t s e) (hb : vm.program.Holds k b)
    (hon : t.OnTape) (hk : Entry k b k') : vm.ComesTo ch k' t s e := by
  induction h generalizing k' with
  | done =>
      cases hk
      exact ⟨0, _, rfl, rfl⟩
  | basic hp _ ih =>
      cases hk
      obtain ⟨hop, hrest⟩ := Program.holds_basic_iff.mp hb
      refine ComesTo.of_next ?_ (ih hrest (Elementary.onTape_of_perform hon hp).1 (.front _))
      rw [next_at_elementary hon hop, hp]
  | fault hp =>
      cases hk
      obtain ⟨hop, -⟩ := Program.holds_basic_iff.mp hb
      refine ⟨0, _, rfl, ?_⟩
      show (vm.moved _ _).next ch _ = _
      rw [next_at_elementary hon hop, hp]
  | astray hc =>
      rw [hon.current_eq] at hc
      exact nomatch hc
  | ended hc _ ih =>
      exact ComesTo.of_next (hk.next_ended hb hon hc) (ih hb.parts.2.2.2 hon (.front _))
  | again hc hz he _ ihb ihl =>
      -- the body leads to the second bracket, and there the loop is entered once more
      have hj := he.place_eq rfl
      obtain ⟨m, s', ha, rfl⟩ := ihb hb.parts.2.1 hon (.front _)
      refine ComesTo.of_next (hk.next_again hb hon hc hz) (ComesTo.of_after ha ?_)
      rw [hj]
      exact ihl hb (he.onTape hon) (.back ..)
  | broken hc hz _ ih =>
      exact ComesTo.of_next (hk.next_again hb hon hc hz) (ih hb.parts.2.1 hon (.front _))

-- ── From steps to evaluations ────────────────────────────────────────────────────

/-- **A machine that stops has evaluated the block it was in**: by induction on the number of
    operations it executes until it stops, since each part of a block takes some of them. -/
theorem exists_evaluates (hs : (vm.moved k' t).StopsAfter ch m s) (hb : vm.program.Holds k b)
    (hon : t.OnTape) (hk : Entry k b k') : ∃ e, Evaluates ch k b t s e := by
  induction m using Nat.strongRecOn generalizing b k k' t s with
  | ind m ih =>
      cases b with
      | done => exact ⟨_, .done⟩
      | basic op rest =>
          cases hk
          obtain ⟨hop, hrest⟩ := Program.holds_basic_iff.mp hb
          rcases hp : op.perform ch k t s with ⟨f | t', s'⟩
          · exact ⟨_, .fault hp⟩
          · have hn : (vm.moved k t).next ch s = (.ok true, vm.moved (k + 1) t', s') := by
              rw [next_at_elementary hon hop, hp]
            obtain ⟨n, rfl, hs'⟩ := hs.of_next hn
            obtain ⟨e, he⟩ := ih n (Nat.lt_succ_self n) hs' hrest
              (Elementary.onTape_of_perform hon hp).1 (.front _)
            exact ⟨e, .basic hp he⟩
      | loop body rest =>
          obtain ⟨-, hbody, -, hrest⟩ := hb.parts
          have hc := hon.current_eq
          by_cases hz : t.get hon.index = 0
          · rw [hz] at hc
            obtain ⟨n, rfl, hs'⟩ := hs.of_next (hk.next_ended hb hon hc)
            obtain ⟨e, he⟩ := ih n (Nat.lt_succ_self n) hs' hrest hon (.front _)
            exact ⟨e, .ended hc he⟩
          · obtain ⟨n, rfl, hs'⟩ := hs.of_next (hk.next_again hb hon hc hz)
            obtain ⟨⟨o, j, t', s'⟩, he⟩ := ih n (Nat.lt_succ_self n) hs' hbody hon (.front _)
            cases o with
            | finished =>
                obtain ⟨l, s'', ha, rfl⟩ := comesTo_of_evaluates he hbody hon (.front _)
                obtain ⟨r, rfl, hr⟩ := hs'.eq_add ha
                have hj := he.place_eq rfl
                dsimp only at hj hr
                rw [hj] at hr
                obtain ⟨e, hl⟩ := ih r (by omega) hr hb (he.onTape hon) (.back ..)
                exact ⟨e, .again hc hz he hl⟩
            | failed f => exact ⟨_, .broken hc hz he⟩
            | unfinished => exact absurd rfl he.outcome_ne

-- ── Whole runs ───────────────────────────────────────────────────────────────────

/-- A machine that comes to where an evaluation of its whole program ended comes to it within some
    limit. -/
theorem exists_course_of_comesTo (h : vm.ComesTo ch 0 vm.tape.reset s e)
    (hend : e.outcome = .finished → e.place = vm.program.size) :
    ∃ limit, (vm.course ch limit s).evaluation = e := by
  obtain ⟨m, s', ha, hstop⟩ := h
  refine ⟨m + 1, ?_⟩
  obtain ⟨o, place, tape, streams⟩ := e
  cases o with
  | finished =>
      obtain rfl : s' = streams := hstop
      have hn : (vm.moved place tape).next ch s' = (.ok false, vm.moved place tape, s') :=
        next_of_fetch_eq_none (fetch_of_size_le (Nat.le_of_eq (hend rfl).symm))
      obtain ⟨ho, hm, hs, -⟩ := advanceFrom_of_stop ha hn nofun (Nat.lt_succ_self m)
      exact Run.evaluation_eq ho hm hs
  | failed f =>
      obtain ⟨ho, hm, hs, -⟩ := advanceFrom_of_stop ha hstop nofun (Nat.lt_succ_self m)
      exact Run.evaluation_eq ho hm hs
  | unfinished => exact hstop.elim

/-- A run of a tree stops exactly as its evaluation does. -/
theorem course_iff_evaluates (hp : vm.program = .ofOperations b.flatten)
    (he : e.outcome ≠ .unfinished) :
    (∃ limit, (vm.course ch limit s).evaluation = e) ↔ Evaluates ch 0 b vm.tape.reset s e := by
  have hb : vm.program.Holds 0 b := by
    rw [hp]
    exact Program.holds_ofOperations b
  have hon : vm.tape.reset.OnTape := Tape.onTape_reset
  have hback {e : Evaluation σ} (h : Evaluates ch 0 b vm.tape.reset s e) :
      ∃ limit, (vm.course ch limit s).evaluation = e := by
    refine exists_course_of_comesTo (comesTo_of_evaluates h hb hon (.front b)) ?_
    intro hf
    rw [h.place_eq hf, hp, Nat.zero_add, ← b.length_elements]
    rfl
  constructor
  · rintro ⟨limit, rfl⟩
    obtain ⟨m, hm⟩ := stopsAfter_of_course he
    have hm' : (vm.moved 0 vm.tape.reset).StopsAfter ch m s := hm
    obtain ⟨e, h⟩ := exists_evaluates hm' hb hon (.front b)
    obtain ⟨limit', h'⟩ := hback h
    have heq : vm.course ch limit s = vm.course ch limit' s := by
      refine course_eq_of_limits he ?_
      show (vm.course ch limit' s).evaluation.outcome ≠ .unfinished
      rw [h']
      exact h.outcome_ne
    rw [heq, h']
    exact h
  · exact hback

/-- A run came to an elementary operation of a block, which failed with `f` on the tape as it was
    then. The fault is a stream failure at that place, or an error that the stream call lets
    through. -/
def FailedIn (ch : Channels σ) (b : Block) (r : Run σ) (f : Fault) : Prop :=
  ∃ (op : Elementary) (s' : σ), b.flatten[r.machine.ip]? = some op.toOperation
    ∧ op.perform ch r.machine.ip r.machine.tape s' = (.error f, r.streams)
    ∧ ((∃ why, f = .stream r.machine.ip why)
      ∨ ∃ x, f = .passed x ∧ op.Passes ch r.machine.tape s' x)

/-- A machine that holds the operations of a tree does what the tree means. -/
structure FollowsTree (ch : Channels σ) (vm : Machine) (b : Block) (s : σ) : Prop where
  /-- The output is flushed when the run has stopped, and not before. -/
  concluded : ∀ limit, vm.run ch limit s = conclude ch (vm.course ch limit s)
  /-- The run stops where the evaluation from the zero tape does, if either of them stops, with the
      same outcome, tape and streams. -/
  stops_iff : ∀ e : Evaluation σ, e.outcome ≠ .unfinished →
    ((∃ limit, (vm.course ch limit s).evaluation = e)
      ↔ ∃ depth, b.evaluate ch depth 0 vm.tape.reset s = e)
  /-- If it succeeds, it has come to the end of the operations. -/
  finished  : ∀ limit, (vm.course ch limit s).outcome = .finished →
    (vm.course ch limit s).machine.ip = b.flatten.length
  /-- If it fails, it has come to an operation that fails. -/
  failed    : ∀ limit f, (vm.course ch limit s).outcome = .failed f →
    FailedIn ch b (vm.course ch limit s) f
  /-- No bracket is without its partner. -/
  paired    : ∀ limit ip, (vm.run ch limit s).outcome ≠ .failed (.unmatchedOpen ip)
    ∧ (vm.run ch limit s).outcome ≠ .failed (.unmatchedClose ip)

/-- A run that has not met its limit is an evaluation of the tree. -/
theorem evaluates_of_course {limit : Nat} (hp : vm.program = .ofOperations b.flatten)
    (h : (vm.course ch limit s).outcome ≠ .unfinished) :
    Evaluates ch 0 b vm.tape.reset s (vm.course ch limit s).evaluation :=
  (course_iff_evaluates hp h).mp ⟨limit, rfl⟩

theorem failedIn_of_course {limit : Nat} {f : Fault} (hp : vm.program = .ofOperations b.flatten)
    (hf : (vm.course ch limit s).outcome = .failed f) :
    FailedIn ch b (vm.course ch limit s) f := by
  have hon : vm.tape.reset.OnTape := Tape.onTape_reset
  have he := evaluates_of_course hp (by rw [hf]; exact nofun)
  obtain ⟨i, op, s', hi, hop, hperform⟩ := he.exists_fault hon hf
  rw [Nat.zero_add] at hi
  rw [← hi] at hop
  exact ⟨op, s', hop, hperform, Elementary.fault_of_perform (he.onTape hon) hperform⟩

/-- A run of a tree fails with what a stream did, in the tree or at the flush. -/
theorem fault_of_run {limit : Nat} {f : Fault} (hp : vm.program = .ofOperations b.flatten)
    (hf : (vm.run ch limit s).outcome = .failed f) :
    (∃ ip why, f = .stream ip why) ∨ ∃ x, f = .passed x := by
  rcases outcome_conclude hf with hc | ⟨-, -, x, -, -, rfl⟩
  · obtain ⟨-, -, -, -, ⟨why, rfl⟩ | ⟨x, rfl, -⟩⟩ := failedIn_of_course hp hc
    · exact Or.inl ⟨_, why, rfl⟩
    · exact Or.inr ⟨x, rfl⟩
  · rcases Fault.ofRaised_cases (vm.course ch limit s).machine.ip x with ⟨-, hx⟩ | ⟨-, hx⟩
    · exact Or.inl ⟨_, _, hx⟩
    · exact Or.inr ⟨x, hx⟩

theorem followsTree_of_program_eq (hp : vm.program = .ofOperations b.flatten)
    (ch : Channels σ) (s : σ) : FollowsTree ch vm b s where
  concluded := fun _ => rfl
  stops_iff := fun e he => (course_iff_evaluates hp he).trans (exists_depth_iff he).symm
  finished  := by
    intro limit hf
    have hplace := (evaluates_of_course hp (by rw [hf]; exact nofun)).place_eq hf
    rw [Nat.zero_add, ← length_flatten] at hplace
    exact hplace
  failed    := fun _ _ hf => failedIn_of_course hp hf
  paired    := by
    intro limit ip
    constructor
    · intro hf
      rcases fault_of_run hp hf with ⟨k, why, hk⟩ | ⟨x, hx⟩
      · exact nomatch hk
      · exact nomatch hx
    · intro hf
      rcases fault_of_run hp hf with ⟨k, why, hk⟩ | ⟨x, hx⟩
      · exact nomatch hk
      · exact nomatch hx

/-- **The machine implements structured loops.** Loaded with the operations of any tree, and on
    streams that behave in any way and whose calls are taken down, it follows the tree; and
    operations are those of a tree, of one only, exactly if they are balanced. -/
theorem implements_structured_loops :
    (∀ {σ : Type} (ch : Channels σ) (b : Block) (vm : Machine) (s : σ),
      FollowsTree ch.recorded (vm.load (.ofOperations b.flatten)) b (s, #[]))
    ∧ ∀ ops : List Operation, Program.isBalanced (ops.map .operation) = true
        ↔ ∃! b : Block, b.flatten = ops :=
  ⟨fun ch _ _ s => followsTree_of_program_eq rfl ch.recorded (s, #[]),
    fun _ => isBalanced_iff_existsUnique⟩

/-- Not every fault of a run is a stream failure: an error of neither handled family goes
    through. -/
theorem fault_need_not_be_stream_failure :
    ¬ ∀ {σ : Type} (ch : Channels σ) (b : Block) (vm : Machine) (s : σ) (limit : Nat) (f : Fault),
      let r := (vm.load (.ofOperations b.flatten)).course ch limit s
      r.outcome = .failed f → ∃ why, f = .stream r.machine.ip why := by
  intro h
  have hnone := h (σ := Unit)
    { read   := fun s => (.error (.named "RuntimeError" "boom"), s)
      write  := fun _ s => (.ok (.whole 1), s)
      flush? := none }
    (.basic .input .done) (fresh 1 Nat.one_pos false) () 1
    (.passed (.named "RuntimeError" "boom")) rfl
  obtain ⟨why, hwhy⟩ := hnone
  exact nomatch hwhy

end Machine

end TapeMachine
