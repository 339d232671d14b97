import TapeMachine.Proofs.Bracket.Matching

/-!
# Two elements more

A program into which two elements are put that are no brackets. All elements from there on stand two
places further on (`behindPair`), and that is all: brackets belong together in the new program
exactly if they did in the old one (`matched_insertPair_iff`), wherever the two elements are put, so
**both searches find the old partners at their new places** (`partnerRight_insertPair`,
`partnerLeft_insertPair`).
-/

namespace TapeMachine.Program

variable {p q : Program} {i j k m n d : Nat} {x y : Element}

/-- The program with two elements more, before place `k`. -/
def insertPair (p : Program) (k : Nat) (x y : Element) : Program :=
  (p.toList.take k ++ x :: y :: p.toList.drop k).toArray

/-- Where an element stands after two more have been put in before place `k`. -/
def behindPair (k i : Nat) : Nat :=
  if k ≤ i then i + 2 else i

theorem behindPair_of_le (h : k ≤ i) : behindPair k i = i + 2 :=
  if_pos h

theorem behindPair_of_lt (h : i < k) : behindPair k i = i :=
  if_neg (Nat.not_le_of_lt h)

/-- Every place is that of an element from before, or of one of the two. -/
theorem exists_behindPair (hk : m ≠ k) (hk' : m ≠ k + 1) : ∃ i, behindPair k i = m := by
  rcases Nat.lt_or_ge m k with hlt | hge
  · exact ⟨m, behindPair_of_lt hlt⟩
  · obtain ⟨i, rfl⟩ := Nat.exists_eq_add_of_le (show k + 2 ≤ m by omega)
    exact ⟨k + i, (behindPair_of_le (Nat.le_add_right k i)).trans (by omega)⟩

-- ── Where the elements are ───────────────────────────────────────────────────────

theorem getElem?_insertPair_of_lt (h : i < k) (hk : k ≤ p.size) :
    (p.insertPair k x y)[i]? = p[i]? := by
  have hlen : i < (p.toList.take k).length := by simp; omega
  simp [insertPair, List.getElem?_append_left hlen, h]

theorem getElem?_insertPair_of_le (h : k ≤ i) (hk : k ≤ p.size) :
    (p.insertPair k x y)[i + 2]? = p[i]? := by
  obtain ⟨n, rfl⟩ := Nat.exists_eq_add_of_le h
  have hlen : (p.toList.take k).length = k := by simp; omega
  have hle : (p.toList.take k).length ≤ k + n + 2 := by omega
  simp [insertPair, List.getElem?_append_right hle, hlen,
    show k + n + 2 - k = n + 1 + 1 by omega]

theorem getElem?_insertPair_first (hk : k ≤ p.size) : (p.insertPair k x y)[k]? = some x := by
  have hlen : (p.toList.take k).length = k := by simp; omega
  simp [insertPair, hlen]

theorem getElem?_insertPair_second (hk : k ≤ p.size) :
    (p.insertPair k x y)[k + 1]? = some y := by
  have hlen : (p.toList.take k).length = k := by simp; omega
  simp [insertPair, hlen]

/-- Every element is still there, at its new place. -/
theorem getElem?_behindPair (hk : k ≤ p.size) :
    (p.insertPair k x y)[behindPair k i]? = p[i]? := by
  rcases Nat.lt_or_ge i k with hlt | hge
  · rw [behindPair_of_lt hlt, getElem?_insertPair_of_lt hlt hk]
  · rw [behindPair_of_le hge, getElem?_insertPair_of_le hge hk]

-- ── The matching ─────────────────────────────────────────────────────────────────

/-- Stretches with the same elements are the same. -/
theorem stretch_congr (h : ∀ m < n, q[j + m]? = p[i + m]?) : q.stretch j n = p.stretch i n := by
  refine List.ext_getElem? fun m => ?_
  rw [stretch, stretch, List.getElem?_take, List.getElem?_take, List.getElem?_drop,
    List.getElem?_drop, Array.getElem?_toList, Array.getElem?_toList]
  split
  · next hm => exact h m hm
  · rfl

/-- A stretch across the place has the two elements more. -/
theorem stretch_insertPair (hk : i + m ≤ p.size) :
    (p.insertPair (i + m) x y).stretch i (m + (n + 2))
      = p.stretch i m ++ x :: y :: p.stretch (i + m) n := by
  have hfront : (p.insertPair (i + m) x y).stretch i m = p.stretch i m :=
    stretch_congr fun l hl => getElem?_insertPair_of_lt (Nat.add_lt_add_left hl i) hk
  have hback : (p.insertPair (i + m) x y).stretch (i + m + 1 + 1) n = p.stretch (i + m) n := by
    refine stretch_congr fun l _ => ?_
    rw [show i + m + 1 + 1 + l = i + m + l + 2 by omega]
    exact getElem?_insertPair_of_le (Nat.le_add_right ..) hk
  rw [stretch_add, hfront, stretch_succ (getElem?_insertPair_first hk),
    stretch_succ (getElem?_insertPair_second hk), hback]

/-- Elements that are no brackets make no difference to the depth. -/
theorem depthAfter_stretch_insertPair (hx : x ≠ .opening ∧ x ≠ .closing)
    (hy : y ≠ .opening ∧ y ≠ .closing) (hk : i + m ≤ p.size) :
    depthAfter d ((p.insertPair (i + m) x y).stretch i (m + (n + 2)))
      = depthAfter d (p.stretch i (m + n)) := by
  rw [stretch_insertPair hk, stretch_add, depthAfter_append, depthAfter_append]
  refine congrArg _ (funext fun e => ?_)
  rw [depthAfter_other hx.1 hx.2, depthAfter_other hy.1 hy.2]

/-- **Brackets belong together after two more elements were put in exactly if they did before.** -/
theorem matched_insertPair_iff (hx : x ≠ .opening ∧ x ≠ .closing)
    (hy : y ≠ .opening ∧ y ≠ .closing) (hk : k ≤ p.size) :
    (p.insertPair k x y).Matched (behindPair k i) (behindPair k j) ↔ p.Matched i j := by
  rcases Nat.lt_or_ge i j with hij | hij
  · obtain ⟨n, rfl⟩ := Nat.exists_eq_add_of_le (Nat.succ_le_of_lt hij)
    have hopens := getElem?_behindPair (x := x) (y := y) (i := i) hk
    have hcloses := getElem?_behindPair (x := x) (y := y) (i := i + 1 + n) hk
    rw [Nat.succ_eq_add_one, matched_iff]
    -- the two are put in behind the pair of brackets, before it, or into it
    rcases Nat.lt_or_ge (i + 1 + n) k with hbehind | hcloses'
    · rw [behindPair_of_lt hbehind] at hcloses ⊢
      rw [behindPair_of_lt (show i < k by omega)] at hopens ⊢
      have hbody : (p.insertPair k x y).stretch (i + 1) n = p.stretch (i + 1) n :=
        stretch_congr fun m hm => getElem?_insertPair_of_lt (by omega) hk
      rw [matched_iff, hopens, hcloses, hbody]
    rcases Nat.lt_or_ge i k with hin | hbefore
    · obtain ⟨a, rfl⟩ := Nat.exists_eq_add_of_le (Nat.succ_le_of_lt hin)
      rw [Nat.succ_eq_add_one] at *
      obtain ⟨b, rfl⟩ := Nat.exists_eq_add_of_le (show a ≤ n by omega)
      rw [behindPair_of_le hcloses', show i + 1 + (a + b) + 2 = i + 1 + (a + (b + 2)) by omega]
        at hcloses ⊢
      rw [behindPair_of_lt hin] at hopens ⊢
      rw [matched_iff, hopens, hcloses, depthAfter_stretch_insertPair hx hy hk]
    · rw [behindPair_of_le hcloses', show i + 1 + n + 2 = i + 2 + 1 + n by omega] at hcloses ⊢
      rw [behindPair_of_le hbefore] at hopens ⊢
      have hbody : (p.insertPair k x y).stretch (i + 2 + 1) n = p.stretch (i + 1) n := by
        refine stretch_congr fun m _ => ?_
        rw [show i + 2 + 1 + m = i + 1 + m + 2 by omega]
        exact getElem?_insertPair_of_le (by omega) hk
      rw [matched_iff, hopens, hcloses, hbody]
  · have hle : behindPair k j ≤ behindPair k i := by
      unfold behindPair
      split <;> split <;> omega
    exact iff_of_false (fun h => Nat.not_lt_of_le hle h.lt) fun h => Nat.not_lt_of_le hij h.lt

-- ── The two searches ─────────────────────────────────────────────────────────────

/-- A bracket of the new program is one of the old program at its new place. -/
theorem exists_behindPair_of_bracket {z : Element} (hk : k ≤ p.size) (hx : x ≠ z) (hy : y ≠ z)
    (hm : (p.insertPair k x y)[m]? = some z) : ∃ i, behindPair k i = m := by
  refine exists_behindPair ?_ ?_
  · rintro rfl
    rw [getElem?_insertPair_first hk] at hm
    exact hx (Option.some.inj hm)
  · rintro rfl
    rw [getElem?_insertPair_second hk] at hm
    exact hy (Option.some.inj hm)

/-- **The partner of a `loopForward` is the one it had**, at its new place, and it has none if it
    had none. -/
theorem partnerRight_insertPair (hx : x ≠ .opening ∧ x ≠ .closing)
    (hy : y ≠ .opening ∧ y ≠ .closing) (hk : k ≤ p.size) (hi : p[i]? = some .opening) :
    (p.insertPair k x y).partnerRight (behindPair k i) = (p.partnerRight i).map (behindPair k) := by
  have hi' := (getElem?_behindPair (x := x) (y := y) hk).trans hi
  ext m
  rw [partnerRight_eq_some_iff hi', Option.map_eq_some_iff]
  constructor
  · intro h
    obtain ⟨j, rfl⟩ := exists_behindPair_of_bracket hk hx.2 hy.2 h.closes
    exact ⟨j, (partnerRight_eq_some_iff hi).mpr ((matched_insertPair_iff hx hy hk).mp h), rfl⟩
  · rintro ⟨j, hj, rfl⟩
    exact (matched_insertPair_iff hx hy hk).mpr ((partnerRight_eq_some_iff hi).mp hj)

theorem partnerLeft_insertPair (hx : x ≠ .opening ∧ x ≠ .closing)
    (hy : y ≠ .opening ∧ y ≠ .closing) (hk : k ≤ p.size) (hj : p[j]? = some .closing) :
    (p.insertPair k x y).partnerLeft (behindPair k j) = (p.partnerLeft j).map (behindPair k) := by
  have hj' := (getElem?_behindPair (x := x) (y := y) hk).trans hj
  ext m
  rw [partnerLeft_eq_some_iff hj', Option.map_eq_some_iff]
  constructor
  · intro h
    obtain ⟨i, rfl⟩ := exists_behindPair_of_bracket hk hx.1 hy.1 h.opens
    exact ⟨i, (partnerLeft_eq_some_iff hj).mpr ((matched_insertPair_iff hx hy hk).mp h), rfl⟩
  · rintro ⟨i, hi, rfl⟩
    exact (matched_insertPair_iff hx hy hk).mpr ((partnerLeft_eq_some_iff hj).mp hi)

end TapeMachine.Program
