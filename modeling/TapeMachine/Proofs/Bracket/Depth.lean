import TapeMachine.Bracket.Pairing

/-!
# Nesting depth

How deep the brackets of a program are nested, stretch by stretch. `Program.stretch p i n` is the
row of `n` elements from place `i` on, and `depthAfter d xs` tells how many loops are open behind
`xs` when `d` were open before.

* Stretches are taken apart at either end and in the middle (`stretch_succ`, `stretch_concat`,
  `stretch_add`).
* `depthAfter_append` passes the depth on from one stretch to the next.
* `depthAfter_add`: more open loops before are more open loops behind, and nothing else changes.
-/

namespace TapeMachine

/-- The element that opens a loop. -/
abbrev Element.opening : Element := .operation .loopForward

/-- The element that closes a loop. -/
abbrev Element.closing : Element := .operation .loopBack

/-- An element opens a loop, closes one, or is no bracket. -/
theorem Element.bracket_cases (x : Element) :
    x = .opening ∨ x = .closing ∨ (x ≠ .opening ∧ x ≠ .closing) := by
  by_cases h1 : x = .opening
  · exact Or.inl h1
  · by_cases h2 : x = .closing
    · exact Or.inr (Or.inl h2)
    · exact Or.inr (Or.inr ⟨h1, h2⟩)

namespace Program

variable {p : Program} {i m n d : Nat} {x : Element} {xs ys : List Element}

-- ── Stretches ────────────────────────────────────────────────────────────────────

/-- The `n` elements from place `i` on, fewer where the program ends before. -/
def stretch (p : Program) (i n : Nat) : List Element :=
  (p.toList.drop i).take n

/-- A stretch of no elements is empty. -/
@[simp] theorem stretch_zero : p.stretch i 0 = [] :=
  List.take_zero

/-- What a program has from a place on begins with the element there. -/
theorem drop_toList (h : p[i]? = some x) : p.toList.drop i = x :: p.toList.drop (i + 1) := by
  obtain ⟨hi, hx⟩ := Array.getElem?_eq_some_iff.mp h
  rw [List.drop_eq_getElem_cons (by simpa using hi)]
  simp [hx]

/-- A stretch begins with the element at its first place. -/
theorem stretch_succ (h : p[i]? = some x) (n : Nat) :
    p.stretch i (n + 1) = x :: p.stretch (i + 1) n := by
  rw [stretch, drop_toList h, List.take_succ_cons]
  rfl

/-- Two stretches in a row are one. -/
theorem stretch_add (p : Program) (i m n : Nat) :
    p.stretch i (m + n) = p.stretch i m ++ p.stretch (i + m) n := by
  rw [stretch, List.take_add, List.drop_drop]
  rfl

/-- A stretch ends with the element at its last place. -/
theorem stretch_concat (h : p[i + n]? = some x) :
    p.stretch i (n + 1) = p.stretch i n ++ [x] := by
  rw [stretch_add, stretch_succ h, stretch_zero]

/-- What a stretch begins with stands at its first place, and the rest behind it. -/
theorem stretch_eq_cons_iff :
    p.stretch i (n + 1) = x :: xs ↔ p[i]? = some x ∧ p.stretch (i + 1) n = xs := by
  constructor
  · intro h
    cases hp : p[i]? with
    | none =>
        have hnil : p.toList.drop i = [] := by simpa using hp
        rw [stretch, hnil] at h
        exact nomatch h
    | some y =>
        rw [stretch_succ hp] at h
        obtain ⟨rfl, hxs⟩ := List.cons.inj h
        exact ⟨rfl, hxs⟩
  · rintro ⟨hp, rfl⟩
    exact stretch_succ hp n

/-- A stretch that is two rows in a row holds each of them at its place. -/
theorem stretch_eq_append (hm : xs.length = m) (h : p.stretch i (m + n) = xs ++ ys) :
    p.stretch i m = xs ∧ p.stretch (i + m) n = ys := by
  have hxs : p.stretch i m = xs := by
    have htake := congrArg (List.take m) h
    rw [List.take_left' hm, stretch, List.take_take,
      Nat.min_eq_left (Nat.le_add_right m n)] at htake
    exact htake
  rw [stretch_add, hxs] at h
  exact ⟨hxs, List.append_cancel_left h⟩

/-- Behind the end of the program a stretch does not grow. -/
theorem stretch_concat_of_none (h : p[i + n]? = none) :
    p.stretch i (n + 1) = p.stretch i n := by
  have hs : p.toList.drop (i + n) = [] := by
    rw [List.drop_eq_nil_iff]
    simpa using h
  rw [stretch_add, stretch, stretch, hs]
  simp

-- ── Depth ────────────────────────────────────────────────────────────────────────

@[simp] theorem depthAfter_nil : depthAfter d [] = some d := rfl

@[simp] theorem depthAfter_opening : depthAfter d (.opening :: xs) = depthAfter (d + 1) xs := rfl

@[simp] theorem depthAfter_closing_zero : depthAfter 0 (.closing :: xs) = none := rfl

@[simp] theorem depthAfter_closing_succ :
    depthAfter (d + 1) (.closing :: xs) = depthAfter d xs := rfl

/-- What is no bracket leaves the depth as it is. -/
theorem depthAfter_other (ho : x ≠ .opening) (hc : x ≠ .closing) :
    depthAfter d (x :: xs) = depthAfter d xs := by
  rw [depthAfter]
  · exact ho
  · exact fun h _ => hc h
  · exact fun _ h _ => hc h

/-- Two stretches in a row pass the depth on from the first to the second. -/
theorem depthAfter_append (d : Nat) (xs ys : List Element) :
    depthAfter d (xs ++ ys) = (depthAfter d xs).bind fun e => depthAfter e ys := by
  induction xs generalizing d with
  | nil => rfl
  | cons x xs ih =>
      rw [List.cons_append]
      rcases x.bracket_cases with rfl | rfl | ⟨ho, hc⟩
      · rw [depthAfter_opening, depthAfter_opening]
        exact ih (d + 1)
      · cases d with
        | zero => rfl
        | succ d => exact ih d
      · rw [depthAfter_other ho hc, depthAfter_other ho hc]
        exact ih d

/-- The depth behind two rows is that behind the second, from the depth behind the first. -/
theorem depthAfter_append_eq_some_iff :
    depthAfter d (xs ++ ys) = some m
      ↔ ∃ e, depthAfter d xs = some e ∧ depthAfter e ys = some m := by
  rw [depthAfter_append, Option.bind_eq_some_iff]

/-- More open loops before are as many more behind. -/
theorem depthAfter_add (h : depthAfter d xs = some m) (k : Nat) :
    depthAfter (d + k) xs = some (m + k) := by
  induction xs generalizing d with
  | nil =>
      have hd : d = m := Option.some.inj h
      rw [hd]
      rfl
  | cons x xs ih =>
      rcases x.bracket_cases with rfl | rfl | ⟨ho, hc⟩
      · have h' := ih (d := d + 1) h
        rw [Nat.add_right_comm] at h'
        exact h'
      · cases d with
        | zero => exact nomatch h
        | succ d =>
            rw [Nat.add_right_comm]
            exact ih (d := d) h
      · rw [depthAfter_other ho hc] at h ⊢
        exact ih h

/-- A `loopForward` at the end opens one loop more. -/
theorem depthAfter_concat_opening :
    depthAfter d (xs ++ [.opening]) = some m ↔ ∃ e, depthAfter d xs = some e ∧ m = e + 1 := by
  rw [depthAfter_append]
  cases depthAfter d xs with
  | none => simp
  | some e => simp [eq_comm]

/-- A closing bracket at the end takes one from the depth before it. -/
theorem depthAfter_concat_closing :
    depthAfter d (xs ++ [.closing]) = some m ↔ depthAfter d xs = some (m + 1) := by
  rw [depthAfter_append]
  cases depthAfter d xs with
  | none => simp
  | some e =>
      cases e with
      | zero => simp
      | succ e => simp

/-- What is no bracket leaves the depth as it is, also at the end. -/
theorem depthAfter_concat_other (ho : x ≠ .opening) (hc : x ≠ .closing) :
    depthAfter d (xs ++ [x]) = depthAfter d xs := by
  rw [depthAfter_append]
  cases depthAfter d xs with
  | none => rfl
  | some e => exact depthAfter_other ho hc

end Program

end TapeMachine
