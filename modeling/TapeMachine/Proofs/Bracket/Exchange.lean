import TapeMachine.Proofs.Bracket.Matching

/-!
# Programs with other elements

Brackets belong together by what brackets stand between them, and all other elements count for
nothing. So a program in which elements are exchanged for others, but every bracket stays what it
is, has the **same matching** (`Program.matched_map_iff`), and both searches find the same partners
in it (`Program.partnerRight_map`, `Program.partnerLeft_map`).
-/

namespace TapeMachine

/-- A map of elements that leaves every bracket what it is, and makes none. -/
structure Element.KeepsBrackets (f : Element → Element) : Prop where
  opening : f .opening = .opening
  closing : f .closing = .closing
  other   : ∀ x, x ≠ .opening → x ≠ .closing → f x ≠ .opening ∧ f x ≠ .closing

namespace Element.KeepsBrackets

variable {f : Element → Element} {x : Element}

/-- What is an opening bracket afterwards was one before. -/
theorem eq_opening_iff (hf : KeepsBrackets f) : f x = .opening ↔ x = .opening := by
  rcases x.bracket_cases with rfl | rfl | ⟨ho, hc⟩
  · exact iff_of_true hf.opening rfl
  · rw [hf.closing]
  · exact iff_of_false (hf.other x ho hc).1 ho

/-- What is a closing bracket afterwards was one before. -/
theorem eq_closing_iff (hf : KeepsBrackets f) : f x = .closing ↔ x = .closing := by
  rcases x.bracket_cases with rfl | rfl | ⟨ho, hc⟩
  · rw [hf.opening]
  · exact iff_of_true hf.closing rfl
  · exact iff_of_false (hf.other x ho hc).2 hc

end Element.KeepsBrackets

namespace Program

variable {f : Element → Element} {p : Program} {i j d : Nat}

/-- The depth behind a row of elements is that of the brackets in it. -/
theorem depthAfter_map (hf : Element.KeepsBrackets f) (xs : List Element) :
    depthAfter d (xs.map f) = depthAfter d xs := by
  induction xs generalizing d with
  | nil => rfl
  | cons x xs ih =>
      rw [List.map_cons]
      rcases x.bracket_cases with rfl | rfl | ⟨ho, hc⟩
      · rw [hf.opening, depthAfter_opening, depthAfter_opening]
        exact ih
      · rw [hf.closing]
        cases d with
        | zero => rfl
        | succ d =>
            rw [depthAfter_closing_succ, depthAfter_closing_succ]
            exact ih
      · obtain ⟨ho', hc'⟩ := hf.other x ho hc
        rw [depthAfter_other ho hc, depthAfter_other ho' hc']
        exact ih

/-- A stretch of the exchanged program is the exchanged stretch. -/
theorem stretch_map (f : Element → Element) (p : Program) (i n : Nat) :
    Program.stretch (p.map f) i n = (p.stretch i n).map f := by
  simp [stretch]

theorem getElem?_map_eq_some_iff {x : Element} (hx : ∀ {y}, f y = x ↔ y = x) :
    (p.map f)[i]? = some x ↔ p[i]? = some x := by
  rw [Array.getElem?_map]
  cases p[i]? with
  | none => exact Iff.rfl
  | some y => simp [hx]

/-- **The matching of a program is that of its brackets.** -/
theorem matched_map_iff (hf : Element.KeepsBrackets f) :
    Program.Matched (p.map f) i j ↔ p.Matched i j := by
  have hbalanced : isBalanced (Program.stretch (p.map f) (i + 1) (j - (i + 1)))
      = isBalanced (p.stretch (i + 1) (j - (i + 1))) := by
    rw [stretch_map, isBalanced, isBalanced, depthAfter_map hf]
  constructor
  · rintro ⟨hlt, ho, hc, hb⟩
    exact ⟨hlt, (getElem?_map_eq_some_iff hf.eq_opening_iff).mp ho,
      (getElem?_map_eq_some_iff hf.eq_closing_iff).mp hc, hbalanced.symm.trans hb⟩
  · rintro ⟨hlt, ho, hc, hb⟩
    exact ⟨hlt, (getElem?_map_eq_some_iff hf.eq_opening_iff).mpr ho,
      (getElem?_map_eq_some_iff hf.eq_closing_iff).mpr hc, hbalanced.trans hb⟩

/-- The search to the right finds the same partner. -/
theorem partnerRight_map (hf : Element.KeepsBrackets f) (hi : p[i]? = some .opening) :
    Program.partnerRight (p.map f) i = p.partnerRight i := by
  have hi' : (p.map f)[i]? = some .opening := (getElem?_map_eq_some_iff hf.eq_opening_iff).mpr hi
  ext j
  rw [partnerRight_eq_some_iff hi', partnerRight_eq_some_iff hi, matched_map_iff hf]

/-- The search to the left finds the same partner. -/
theorem partnerLeft_map (hf : Element.KeepsBrackets f) (hj : p[j]? = some .closing) :
    Program.partnerLeft (p.map f) j = p.partnerLeft j := by
  have hj' : (p.map f)[j]? = some .closing := (getElem?_map_eq_some_iff hf.eq_closing_iff).mpr hj
  ext i
  rw [partnerLeft_eq_some_iff hj', partnerLeft_eq_some_iff hj, matched_map_iff hf]

end Program

end TapeMachine
