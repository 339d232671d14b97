import TapeMachine.Proofs.Crew.Turn

/-!
# A shared output

Engines with an input each and one output between them, which collects what they give. A write to
the output is always accepted, so no engine notices what the others wrote there, and **each engine
gets on as if it were alone**: `Alike` says what one engine can see of two crews, and its own turns
keep it (`Alike.step_self`) as well as those of others do (`Alike.step_other`).

The output holds the bytes given in the order of the turns, none of them lost.
-/

namespace TapeMachine.Crew

variable {ι : Type} {c c' : Crew ι} {i j : ι} {p : Nat} {bs bs' : List UInt8}

/-- Every engine has an input of its own, and all have the same output, at place `p`. -/
structure SharesOutput (c : Crew ι) (p : Nat) : Prop where
  output    : ∀ i, (c.engines i).output.place = p
  input_ne  : ∀ i, (c.engines i).input.place ≠ p
  inputs_ne : ∀ i j, i ≠ j → (c.engines i).input.place ≠ (c.engines j).input.place

/-- The stream at place `p` is an open buffer, at its end, with the given bytes. -/
def Collects (ds : Devices) (p : Nat) (bs : List UInt8) : Prop :=
  ds[p]? = some (.bytes { contents := bs.toArray, position := bs.length })

/-- One engine cannot tell two crews apart: it is the same in both, and so is its input. -/
structure Alike (i : ι) (c c' : Crew ι) : Prop where
  engine : c.engines i = c'.engines i
  input  : c.devices[(c.engines i).input.place]? = c'.devices[(c.engines i).input.place]?

theorem alike_self (i : ι) (c : Crew ι) : Alike i c c :=
  ⟨rfl, rfl⟩

/-- Every write is accepted. -/
theorem SharesOutput.write_eq (h : c.SharesOutput p) (hbs : Collects c.devices p bs) (i : ι)
    (b : UInt8) : ((c.engines i).channels c.devices).write b c.devices
      = (.ok (.whole 1), c.devices.setIfInBounds p
          (.bytes { contents := bs.toArray.push b, position := bs.length + 1 })) := by
  have hbs' : c.devices[(c.engines i).output.place]?
      = some (.bytes { contents := bs.toArray, position := bs.toArray.size }) := by
    rw [h.output i]
    exact hbs
  have hw : ((c.engines i).channels c.devices).write b c.devices
      = (.ok (.whole 1), c.devices.setIfInBounds (c.engines i).output.place
          (.bytes { contents := bs.toArray.push b, position := bs.length + 1 })) :=
    Channels.write_ofHandles hbs' b
  rw [hw, h.output i]

/-- An engine that cannot tell two crews apart gets the same answers in both. -/
theorem Alike.sameAnswer (h : Alike i c c') (hs : c.SharesOutput p) (hs' : c'.SharesOutput p)
    (hbs : Collects c.devices p bs) (hbs' : Collects c'.devices p bs') (d : Demand) :
    Channels.SameAnswer ((c.engines i).channels c.devices) c.devices
      ((c.engines i).channels c'.devices) c'.devices d := by
  cases d with
  | read => exact (Handle.read_congr h.input _).1
  | write b =>
      have hw := hs'.write_eq hbs' i b
      rw [← h.engine] at hw
      show (((c.engines i).channels c.devices).write b c.devices).1
        = (((c.engines i).channels c'.devices).write b c'.devices).1
      rw [hs.write_eq hbs i b, hw]

/-- In crews that are alike for an engine its turns come to the same. -/
theorem Alike.turn (h : Alike i c c') (hs : c.SharesOutput p) (hs' : c'.SharesOutput p)
    (hbs : Collects c.devices p bs) (hbs' : Collects c'.devices p bs') :
    (c.turn i).result = (c'.turn i).result ∧ (c.turn i).machine = (c'.turn i).machine :=
  turn_congr h.engine fun d _ => h.sameAnswer hs hs' hbs hbs' d

/-- In crews that are alike for an engine its turns move the same. -/
theorem Alike.moved? (h : Alike i c c') (hs : c.SharesOutput p) (hs' : c'.SharesOutput p)
    (hbs : Collects c.devices p bs) (hbs' : Collects c'.devices p bs') :
    c.moved? i = c'.moved? i := by
  obtain ⟨hresult, hmachine⟩ := h.turn hs hs' hbs hbs'
  exact moved?_congr h.engine hresult hmachine

section

variable [DecidableEq ι]

/-- A turn leaves every engine with its streams. -/
theorem SharesOutput.step (h : c.SharesOutput p) (i : ι) : (c.step i).SharesOutput p where
  output j := by
    rw [(handles_step c i j).2]
    exact h.output j
  input_ne j := by
    rw [(handles_step c i j).1]
    exact h.input_ne j
  inputs_ne j k hjk := by
    rw [(handles_step c i j).1, (handles_step c i k).1]
    exact h.inputs_ne j k hjk

/-- A turn adds the byte that it gives, if it gives one. -/
theorem SharesOutput.collects_step (h : c.SharesOutput p) (hbs : Collects c.devices p bs) (i : ι) :
    Collects (c.step i).devices p (bs ++ ((c.moved? i).bind Transfer.given?).toList) := by
  -- only a write to the output adds to it; a read is from a stream elsewhere
  have hsilent (hr : ∀ b, (c.engines i).machine.request? ≠ some (.write b))
      (hd : (c.step i).devices[p]? = c.devices[p]?) :
      Collects (c.step i).devices p (bs ++ ((c.moved? i).bind Transfer.given?).toList) := by
    rw [given?_moved? hr, Option.toList_none, List.append_nil]
    exact hd.trans hbs
  rcases hr : (c.engines i).machine.request? with _ | _ | b
  · refine hsilent (by rw [hr]; exact fun _ => nofun) ?_
    rw [devices_step, hr]
    rfl
  · refine hsilent (by rw [hr]; exact fun _ => nofun) ?_
    rw [devices_step, hr]
    exact Handle.getElem?_read_of_ne (h.input_ne i) _
  · have hw := h.write_eq hbs i b
    have hresult : (c.turn i).result = .ok true :=
      Machine.next_of_write hr (congrArg Prod.fst hw) rfl
    rw [moved?_of_ok hresult, Machine.transfer?_of_write (Machine.demand?_of_request? hr), Collects,
      devices_step, hr]
    show (((c.engines i).channels c.devices).write b c.devices).2[p]? = _
    rw [hw, Devices.getElem?_setIfInBounds_self hbs]
    simp [Transfer.given?]

/-- After its own turn an engine cannot tell them apart still. -/
theorem Alike.step_self (h : Alike i c c') (hs : c.SharesOutput p) (hs' : c'.SharesOutput p)
    (hbs : Collects c.devices p bs) (hbs' : Collects c'.devices p bs') :
    Alike i (c.step i) (c'.step i) := by
  obtain ⟨-, hmachine⟩ := h.turn hs hs' hbs hbs'
  constructor
  · rw [engines_step_self, engines_step_self, hmachine, h.engine]
  · rw [(handles_step c i i).1, devices_step, devices_step, ← h.engine]
    rcases (c.engines i).machine.request? with _ | _ | b
    · exact h.input
    · exact (Handle.read_congr h.input _).2
    · have hne : (c.engines i).output.place ≠ (c.engines i).input.place := by
        rw [hs.output i]
        exact (hs.input_ne i).symm
      exact ((Handle.getElem?_write_of_ne hne _).trans h.input).trans
        (Handle.getElem?_write_of_ne hne _).symm

/-- The turn of another engine is not noticed. -/
theorem Alike.step_other (h : Alike i c c') (hs : c.SharesOutput p) (hij : i ≠ j) :
    Alike i (c.step j) c' := by
  constructor
  · rw [engines_step_of_ne hij]
    exact h.engine
  · rw [engines_step_of_ne hij]
    have ho : (c.engines j).output.place ≠ (c.engines i).input.place := by
      rw [hs.output j]
      exact (hs.input_ne i).symm
    rw [getElem?_devices_step (hs.inputs_ne j i hij.symm) ho]
    exact h.input

-- ── Many turns ───────────────────────────────────────────────────────────────────

/-- So do any turns. -/
theorem SharesOutput.steps (h : c.SharesOutput p) (turns : List ι) :
    (c.steps turns).SharesOutput p := by
  induction turns using List.reverseRecOn with
  | nil => exact h
  | append_singleton turns j ih =>
      rw [steps_concat]
      exact ih.step j

/-- The output holds the bytes given, in the order of the turns. -/
theorem SharesOutput.collects_steps (h : c.SharesOutput p) (hbs : Collects c.devices p [])
    (turns : List ι) : Collects (c.steps turns).devices p (givenIn (c.log turns)) := by
  induction turns using List.reverseRecOn with
  | nil => exact hbs
  | append_singleton turns j ih =>
      rw [steps_concat, log_concat, givenIn_concat]
      exact (h.steps turns).collects_step ih j

/-- After as many turns alone an engine is where it is among others, and has moved the same. -/
theorem SharesOutput.alike_alone (h : c.SharesOutput p) (hbs : Collects c.devices p []) (i : ι)
    (turns : List ι) : Alike i (c.steps turns) (c.alone i (turns.count i))
      ∧ c.log (.replicate (turns.count i) i) = ownIn i (c.log turns) := by
  induction turns using List.reverseRecOn with
  | nil => exact ⟨alike_self i c, rfl⟩
  | append_singleton turns j ih =>
      obtain ⟨halike, hlog⟩ := ih
      have hs := h.steps turns
      have hs' := h.steps (.replicate (turns.count i) i)
      have hcollects := h.collects_steps hbs turns
      have hcollects' := h.collects_steps hbs (.replicate (turns.count i) i)
      rw [steps_concat, log_concat, ownIn_concat, List.count_append]
      -- the last turn is made in both crews if it is this engine's, and else in the first only
      by_cases hij : j = i
      · subst hij
        rw [List.count_singleton_self, alone_succ, List.replicate_succ', log_concat, if_pos rfl,
          hlog, halike.moved? hs hs' hcollects hcollects']
        exact ⟨halike.step_self hs hs' hcollects hcollects', rfl⟩
      · rw [List.count_singleton, if_neg (by simpa using hij), Nat.add_zero, if_neg hij,
          List.append_nil]
        exact ⟨halike.step_other hs (Ne.symm hij), hlog⟩

/-- One engine among others after some turns: all that it can see is as if it had made its own
    turns alone, and what they have given is in the output in the order of the turns. -/
structure Undisturbed (c : Crew ι) (p : Nat) (turns : List ι) (i : ι) : Prop where
  /-- The engine itself: place, tape and pointer. -/
  engine : (c.steps turns).engines i = (c.alone i (turns.count i)).engines i
  /-- Its input, as far on as it would be. -/
  input  : (c.steps turns).devices[(c.engines i).input.place]?
    = (c.alone i (turns.count i)).devices[(c.engines i).input.place]?
  /-- What its next step comes to. -/
  result : ((c.steps turns).turn i).result = ((c.alone i (turns.count i)).turn i).result
  /-- The output holds what all have given. -/
  output : Collects (c.steps turns).devices p (givenIn (c.log turns))
  /-- The part of it that is this engine's is its output alone. -/
  own    : Collects (c.alone i (turns.count i)).devices p (givenIn (ownIn i (c.log turns)))

/-- No turn gives an engine another input. -/
theorem input_steps (c : Crew ι) (turns : List ι) (i : ι) :
    ((c.steps turns).engines i).input = (c.engines i).input := by
  induction turns using List.reverseRecOn with
  | nil => rfl
  | append_singleton turns j ih => rw [steps_concat, (handles_step _ j i).1, ih]

theorem SharesOutput.undisturbed (h : c.SharesOutput p) (hbs : Collects c.devices p [])
    (turns : List ι) (i : ι) : Undisturbed c p turns i := by
  obtain ⟨halike, hlog⟩ := h.alike_alone hbs i turns
  have hcollects := h.collects_steps hbs turns
  have hcollects' := h.collects_steps hbs (.replicate (turns.count i) i)
  have hturn := halike.turn (h.steps turns) (h.steps _) hcollects hcollects'
  refine ⟨halike.engine, ?_, hturn.1, hcollects, ?_⟩
  · rw [← input_steps c turns i]
    exact halike.input
  · rw [← hlog]
    exact hcollects'

end

end TapeMachine.Crew
