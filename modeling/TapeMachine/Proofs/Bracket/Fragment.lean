import TapeMachine.Proofs.Bracket.Matching

/-!
# Fragments

A program that stands inside a longer one. Whether two brackets belong together depends on what is
between them and on nothing else, so **the pairs of a fragment are pairs of the whole**, and the
whole has no others among the places of the fragment (`Fragment.matched_iff`).

A bracket without a partner in the fragment may find one outside. It does not where there is nothing
on the side that its partner would be on (`Fragment.unmatched_of_front`, `Fragment.unmatched_of_back`),
or where all brackets there have partners already (`Fragment.unmatched_behind_closed`).
-/

namespace TapeMachine.Program

variable {p q P : Program} {d i j k n : Nat} {x : Element}

/-- The elements of `p` stand in `P` from place `d` on. -/
def Fragment (p P : Program) (d : Nat) : Prop :=
  ∀ k, k < p.size → P[d + k]? = p[k]?

/-- Every `loopForward` has a partner. -/
def Closed (p : Program) : Prop :=
  ∀ i, p[i]? = some .opening → ∃ j, p.Matched i j

/-- The first of two programs is a part of both, at the beginning. -/
theorem fragment_append_left (p q : Program) : Fragment p (p ++ q) 0 := by
  intro k hk
  rw [Nat.zero_add, Array.getElem?_append_left hk]

/-- The second of two programs is a part of both, behind the first. -/
theorem fragment_append_right (p q : Program) : Fragment q (p ++ q) p.size := by
  intro k _
  rw [Array.getElem?_append_right (Nat.le_add_right ..), Nat.add_sub_cancel_left]

/-- A place with an element is a place of the program. -/
theorem lt_size_of_getElem? (h : p[k]? = some x) : k < p.size := by
  obtain ⟨hk, -⟩ := Array.getElem?_eq_some_iff.mp h
  exact hk

namespace Fragment

/-- The elements of a part are those of the whole, further on. -/
theorem getElem? (h : Fragment p P d) (hk : p[k]? = some x) : P[d + k]? = some x :=
  (h k (lt_size_of_getElem? hk)).trans hk

/-- A stretch of the part is a stretch of the whole. -/
theorem stretch_eq (h : Fragment p P d) (hn : i + n ≤ p.size) :
    P.stretch (d + i) n = p.stretch i n := by
  induction n generalizing i with
  | zero => rfl
  | succ n ih =>
      have hi : p[i]? = some p[i] := Array.getElem?_eq_getElem (by omega)
      rw [stretch_succ hi, stretch_succ (h.getElem? hi), Nat.add_assoc, ih (by omega)]

/-- **Brackets of a fragment belong together in the whole exactly if they do in the fragment.** -/
theorem matched_iff (h : Fragment p P d) (hj : j < p.size) :
    P.Matched (d + i) (d + j) ↔ p.Matched i j := by
  rcases Nat.lt_or_ge i j with hij | hij
  · obtain ⟨n, rfl⟩ := Nat.exists_eq_add_of_le (Nat.succ_le_of_lt hij)
    have hopens : P[d + i]? = p[i]? := h i (by omega)
    have hcloses : P[d + (i + 1 + n)]? = p[i + 1 + n]? := h _ hj
    have hstretch : P.stretch (d + (i + 1)) n = p.stretch (i + 1) n := h.stretch_eq (by omega)
    rw [show d + (i.succ + n) = d + i + 1 + n by omega, Program.matched_iff, Program.matched_iff,
      show d + i + 1 + n = d + (i + 1 + n) by omega, hopens, hcloses, Nat.add_assoc d i 1, hstretch]
  · constructor
    · intro hm
      have hlt := hm.lt
      omega
    · intro hm
      have hlt := hm.lt
      omega

/-- Brackets that belong together in a part belong together in the whole. -/
theorem matched (h : Fragment p P d) (hm : p.Matched i j) : P.Matched (d + i) (d + j) :=
  (h.matched_iff (lt_size_of_getElem? hm.closes)).mpr hm

/-- A search that finds something in the fragment finds the same in the whole. -/
theorem partnerRight (h : Fragment p P d) (hi : p[i]? = some .opening)
    (hj : p.partnerRight i = some j) : P.partnerRight (d + i) = some (d + j) := by
  rw [partnerRight_eq_some_iff (h.getElem? hi)]
  exact h.matched ((partnerRight_eq_some_iff hi).mp hj)

/-- A partner to the left in a part is the partner in the whole. -/
theorem partnerLeft (h : Fragment p P d) (hj : p[j]? = some .closing)
    (hi : p.partnerLeft j = some i) : P.partnerLeft (d + j) = some (d + i) := by
  rw [partnerLeft_eq_some_iff (h.getElem? hj)]
  exact h.matched ((partnerLeft_eq_some_iff hj).mp hi)

-- ── Brackets without partners ────────────────────────────────────────────────────

/-- At the front of a program, a `loopBack` has nothing more before it. -/
theorem unmatched_of_front (h : Fragment p P 0) (hj : j < p.size) (hm : ∀ i, ¬ p.Matched i j) :
    ∀ i, ¬ P.Matched i j := by
  intro i hP
  refine hm i ((h.matched_iff hj).mp ?_)
  rw [Nat.zero_add, Nat.zero_add]
  exact hP

/-- At the back of a program, a `loopForward` has nothing more behind it. -/
theorem unmatched_of_back (h : Fragment p P d) (hd : P.size = d + p.size)
    (hm : ∀ j, ¬ p.Matched i j) : ∀ j, ¬ P.Matched (d + i) j := by
  intro j hP
  have hij := hP.lt
  have hj := lt_size_of_getElem? hP.closes
  obtain ⟨c, rfl⟩ := Nat.exists_eq_add_of_le (show d ≤ j by omega)
  exact hm c ((h.matched_iff (by omega)).mp hP)

/-- A `loopBack` finds no partner in a program before its own whose `loopForward`s all have
    partners. -/
theorem unmatched_behind_closed (hp : Fragment p P 0) (hq : Fragment q P p.size) (hj : j < q.size)
    (hclosed : p.Closed) (hm : ∀ i, ¬ q.Matched i j) :
    ∀ i, ¬ P.Matched i (p.size + j) := by
  intro i hP
  rcases Nat.lt_or_ge i p.size with hi | hi
  · have hopens : p[i]? = some .opening := by
      rw [← hp i hi, Nat.zero_add]
      exact hP.opens
    obtain ⟨c, hc⟩ := hclosed i hopens
    have hcP := hp.matched hc
    rw [Nat.zero_add, Nat.zero_add] at hcP
    -- It would have two partners, one in either program.
    have heq := hP.right_unique hcP
    have hlt := lt_size_of_getElem? hc.closes
    omega
  · obtain ⟨o, rfl⟩ := Nat.exists_eq_add_of_le hi
    exact hm o ((hq.matched_iff hj).mp hP)

end Fragment

-- Across the seam a `loopForward` of the first program and a `loopBack` of the second find one
-- another, so none of the conditions above can be left out.
example : partnerRight #[.opening] 0 = none ∧ partnerLeft #[.closing] 0 = none
    ∧ partnerRight (#[.opening] ++ #[.closing]) 0 = some 1
    ∧ partnerLeft (#[.opening] ++ #[.closing]) 1 = some 0 :=
  ⟨rfl, rfl, rfl, rfl⟩

end TapeMachine.Program
