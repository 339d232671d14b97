import TapeMachine.Proofs.Machine.Reachable
import TapeMachine.Proofs.Machine.Traffic

/-!
# Runs without input

If the input has nothing to give whenever it is asked, no `input` succeeds. A run then ends at the
first one that it comes to (`outcome_of_input`), and it is **only there** that it can end for want
of input (`input_of_exhausted`). Whether it comes to one at all may depend on the loops before it.
-/

namespace TapeMachine.Machine

variable {σ : Type} {ch : Channels σ} {vm vm' : Machine} {s : σ} {n limit ip : Nat}

/-- The input has nothing to give at any state that the program comes to. -/
def Starved (ch : Channels σ) (vm : Machine) (s : σ) : Prop :=
  ∀ i vm' s', vm.after ch i s = some (vm', s') → (ch.read s').1 = .ok (.bytes [])

/-- An `input` that is given nothing fails. -/
theorem next_input_of_nothing (hon : vm.tape.OnTape) (hf : vm.fetch = some (.operation .input))
    (hr : (ch.read s).1 = .ok (.bytes [])) :
    ∃ s', vm.next ch s = (.error (.stream vm.ip .exhausted), vm, s') := by
  refine ⟨(ch.read s).2, ?_⟩
  rw [next_input hon hf, hr]
  rfl

/-- **A run that comes to an `input` ends there.** -/
theorem outcome_of_input (hon : vm.reset.tape.OnTape) (hs : vm.reset.Starved ch s)
    (hmem : vm' ∈ vm.reset.trail ch limit s) (hf : vm'.fetch = some (.operation .input)) :
    (vm.run ch limit s).outcome = .failed (.stream vm'.ip .exhausted) := by
  obtain ⟨i, hi⟩ := List.getElem?_of_mem hmem
  obtain ⟨hlt, s', ha⟩ := getElem?_trail.mp hi
  obtain ⟨s'', hn⟩ := next_input_of_nothing (onTape_after hon ha) hf (hs i vm' s' ha)
  exact outcome_run_of_course (advanceFrom_of_stop ha hn nofun hlt).1

/-- An `input` on the way is where the program stops. -/
theorem Starved.stopsAfter {i : Nat} {s' : σ} (hon : vm.tape.OnTape) (hs : vm.Starved ch s)
    (ha : vm.after ch i s = some (vm', s')) (hf : vm'.fetch = some (.operation .input)) :
    vm.StopsAfter ch i s := by
  obtain ⟨s'', hn⟩ := next_input_of_nothing (onTape_after hon ha) hf (hs i vm' s' ha)
  refine ⟨vm', s', ha, ?_⟩
  rw [hn]
  exact nofun

/-- **A run that ends for want of input has come to an `input`**, to the first one on its way. -/
theorem Sound.input_of_exhausted (h : vm.Sound n) (hs : vm.reset.Starved ch s)
    (ho : (vm.run ch limit s).outcome = .failed (.stream ip .exhausted)) :
    ∃ past vm', vm.reset.trail ch limit s = past ++ [vm']
      ∧ (∀ vm'' ∈ past, vm''.fetch ≠ some (.operation .input))
      ∧ vm'.fetch = some (.operation .input) ∧ vm'.ip = ip := by
  rw [run_eq_conclude] at ho
  rcases outcome_conclude ho with hfail | ⟨-, flush, e, -, -, he⟩
  · obtain ⟨r, s', hlt, hr, hres, ha, hn⟩ := stop_of_course (by rw [hfail]; exact nofun)
    obtain rfl : r = .error (.stream ip .exhausted) :=
      Outcome.ofResult_eq_failed (hres.symm.trans hfail)
    have hplain : ∀ chunk, (ch.read s').1 = .ok chunk → chunk.IsPlain := by
      intro chunk hchunk
      obtain rfl := Except.ok.inj ((hs _ _ _ ha).symm.trans hchunk)
      exact trivial
    have hstep := congrArg Prod.fst hn
    have haccounted := (h.reset.after ha).accounted hstep hplain
    obtain ⟨past, hlen, htrail⟩ := trail_of_stop ha (by rw [hn]; exact hr) hlt
    cases haccounted with
    | exhausted chunk hf hread hv =>
        refine ⟨past, _, htrail, ?_, hf, rfl⟩
        intro vm'' hmem hf''
        -- Were one of those before it at an `input`, the program would have stopped there.
        obtain ⟨i, hi⟩ := List.getElem?_of_mem hmem
        obtain ⟨hlt', -⟩ := List.getElem?_eq_some_iff.mp hi
        have hi' : (vm.reset.trail ch limit s)[i]? = some vm'' := by
          rw [htrail, List.getElem?_append_left hlt']
          exact hi
        obtain ⟨-, s'', ha''⟩ := getElem?_trail.mp hi'
        obtain ⟨e, he, -⟩ := (hs.stopsAfter h.reset.onTape ha'' hf'').eq_add ha
        omega
  · rcases Fault.ofRaised_cases (vm.course ch limit s).machine.ip e with ⟨-, hf⟩ | ⟨-, hf⟩
    · exact nomatch he.trans hf
    · exact nomatch he.trans hf

end TapeMachine.Machine
