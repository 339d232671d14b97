import TapeMachine.Proofs.Bracket.Depth

/-!
# The matching of brackets

Which `loopForward` belongs to which `loopBack`. `Program.Matched p i j` says it without any search:
the brackets at `i < j` belong together when what stands strictly between them is balanced. Three
ways to find a pair are shown to find exactly these:

* `partnerRight_eq_some_iff` — the search to the right, whose counter is the depth **behind** the
  elements read so far;
* `partnerLeft_eq_some_iff` — the search to the left, whose counter is the depth that the elements
  read so far **still have to close**;
* `mem_pairs_iff` — the single pass with a stack.

The matching is one to one (`Matched.right_unique`, `Matched.left_unique`) and two of its pairs
never cross (`Matched.lt_of_inside`), in every program, balanced or not.
-/

namespace TapeMachine.Program

variable {p : Program} {i j c o d : Nat} {x : Element}

/-- The bracket at `i` opens a loop that the bracket at `j` closes. -/
structure Matched (p : Program) (i j : Nat) : Prop where
  lt       : i < j
  opens    : p[i]? = some .opening
  closes   : p[j]? = some .closing
  balanced : isBalanced (p.stretch (i + 1) (j - (i + 1))) = true

-- ── The half of a pair that is still to come ─────────────────────────────────────

/-- With `d + 1` loops open before place `i`, the outermost of them is closed at `c`. -/
def ClosesFrom (p : Program) (d i c : Nat) : Prop :=
  ∃ n, c = i + n ∧ p[i + n]? = some .closing ∧ depthAfter d (p.stretch i n) = some 0

theorem not_closesFrom_of_none (h : p[i]? = none) : ¬ p.ClosesFrom d i c := by
  rintro ⟨n, -, hc, -⟩
  have hi : p.size ≤ i := by simpa using h
  have hn : p[i + n]? = none := by simp; omega
  rw [hn] at hc
  exact nomatch hc

/-- Reading one element: if it is not the one that closes, it changes the depth from `d` to `e`. -/
theorem closesFrom_step {e : Nat} (hx : p[i]? = some x) (h0 : ¬ (x = .closing ∧ d = 0))
    (he : ∀ xs, depthAfter d (x :: xs) = depthAfter e xs) :
    p.ClosesFrom d i c ↔ p.ClosesFrom e (i + 1) c := by
  constructor
  · rintro ⟨n, rfl, hc, hd⟩
    cases n with
    | zero =>
        rw [Nat.add_zero, hx] at hc
        rw [stretch_zero, depthAfter_nil] at hd
        exact absurd ⟨Option.some.inj hc, Option.some.inj hd⟩ h0
    | succ n =>
        rw [stretch_succ hx, he] at hd
        rw [show i + (n + 1) = i + 1 + n by omega] at hc ⊢
        exact ⟨n, rfl, hc, hd⟩
  · rintro ⟨n, rfl, hc, hd⟩
    rw [show i + 1 + n = i + (n + 1) by omega] at hc ⊢
    refine ⟨n + 1, rfl, hc, ?_⟩
    rw [stretch_succ hx, he]
    exact hd

/-- A `loopBack` with no inner loop open is the one that closes. -/
theorem closesFrom_zero (hx : p[i]? = some .closing) : p.ClosesFrom 0 i c ↔ c = i := by
  constructor
  · rintro ⟨n, rfl, -, hd⟩
    cases n with
    | zero => rfl
    | succ n =>
        rw [stretch_succ hx] at hd
        exact nomatch hd
  · rintro rfl
    exact ⟨0, rfl, hx, rfl⟩

-- ── The half of a pair that has gone by ──────────────────────────────────────────

/-- Before place `j` a loop was opened at `o`, inside of which `d` loops are open. -/
def OpensBefore (p : Program) (d j o : Nat) : Prop :=
  ∃ n, j = o + 1 + n ∧ p[o]? = some .opening ∧ depthAfter 0 (p.stretch (o + 1) n) = some d

theorem not_opensBefore_zero : ¬ p.OpensBefore d 0 o := by
  rintro ⟨n, hn, -⟩
  omega

/-- Reading one element more: if it is not the one that opens, it changes the depth from `e`
    to `d`. -/
theorem opensBefore_step {e : Nat} (h0 : ¬ (p[j]? = some .opening ∧ d = 0))
    (he : ∀ o n, j = o + 1 + n → (depthAfter 0 (p.stretch (o + 1) (n + 1)) = some d
      ↔ depthAfter 0 (p.stretch (o + 1) n) = some e)) :
    p.OpensBefore d (j + 1) o ↔ p.OpensBefore e j o := by
  constructor
  · rintro ⟨n, hj, ho, hd⟩
    cases n with
    | zero =>
        obtain rfl : j = o := by omega
        rw [stretch_zero, depthAfter_nil] at hd
        exact absurd ⟨ho, (Option.some.inj hd).symm⟩ h0
    | succ n =>
        have hj' : j = o + 1 + n := by omega
        exact ⟨n, hj', ho, (he o n hj').mp hd⟩
  · rintro ⟨n, hj, ho, hd⟩
    exact ⟨n + 1, by omega, ho, (he o n hj).mpr hd⟩

/-- A `loopForward` with nothing to close is the one that opens. -/
theorem opensBefore_zero (hx : p[j]? = some .opening) : p.OpensBefore 0 (j + 1) o ↔ o = j := by
  constructor
  · rintro ⟨n, hj, -, hd⟩
    cases n with
    | zero => omega
    | succ n =>
        have hj' : j = o + 1 + n := by omega
        rw [hj'] at hx
        rw [stretch_concat hx, depthAfter_concat_opening] at hd
        obtain ⟨e, -, he⟩ := hd
        exact nomatch he
  · rintro rfl
    exact ⟨0, rfl, hx, rfl⟩

-- ── The two halves make a pair ───────────────────────────────────────────────────

/-- Brackets with `n` elements in between belong together if these lead from depth zero to depth
    zero. -/
theorem matched_iff {n : Nat} :
    p.Matched i (i + 1 + n) ↔ p[i]? = some .opening ∧ p[i + 1 + n]? = some .closing
      ∧ depthAfter 0 (p.stretch (i + 1) n) = some 0 := by
  constructor
  · rintro ⟨-, ho, hc, hb⟩
    rw [Nat.add_sub_cancel_left] at hb
    exact ⟨ho, hc, of_decide_eq_true hb⟩
  · rintro ⟨ho, hc, hb⟩
    refine ⟨by omega, ho, hc, ?_⟩
    rw [Nat.add_sub_cancel_left]
    exact decide_eq_true hb

/-- A pair, seen from the bracket that opens it. -/
theorem matched_iff_closesFrom (hi : p[i]? = some .opening) :
    p.Matched i j ↔ p.ClosesFrom 0 (i + 1) j := by
  constructor
  · intro h
    obtain ⟨n, rfl⟩ := Nat.exists_eq_add_of_le (Nat.succ_le_of_lt h.lt)
    obtain ⟨-, hc, hb⟩ := matched_iff.mp h
    exact ⟨n, rfl, hc, hb⟩
  · rintro ⟨n, rfl, hc, hb⟩
    exact matched_iff.mpr ⟨hi, hc, hb⟩

theorem matched_iff_opensBefore (hj : p[j]? = some .closing) :
    p.Matched i j ↔ p.OpensBefore 0 j i := by
  constructor
  · intro h
    obtain ⟨n, rfl⟩ := Nat.exists_eq_add_of_le (Nat.succ_le_of_lt h.lt)
    obtain ⟨ho, -, hb⟩ := matched_iff.mp h
    exact ⟨n, rfl, ho, hb⟩
  · rintro ⟨n, rfl, ho, hb⟩
    exact matched_iff.mpr ⟨ho, hj, hb⟩

-- ── The two searches ─────────────────────────────────────────────────────────────

/-- The search over all that is left to the right finds where the outermost loop is closed. -/
theorem searchRight_eq_some_iff {left : Nat} (hl : i + left = p.size) :
    p.searchRight left d i = some j ↔ p.ClosesFrom d i j := by
  induction left generalizing d i with
  | zero =>
      have hi : p[i]? = none := by simp; omega
      constructor
      · intro h
        exact nomatch h
      · intro h
        exact absurd h (not_closesFrom_of_none hi)
  | succ left ih =>
      have ih' (e : Nat) := ih (d := e) (i := i + 1) (by omega)
      obtain ⟨x, hx⟩ : ∃ x, p[i]? = some x := ⟨_, Array.getElem?_eq_getElem (by omega)⟩
      unfold searchRight
      rw [hx]
      rcases x.bracket_cases with rfl | rfl | ⟨ho, hc⟩
      · rw [closesFrom_step hx (by simp) (fun _ => depthAfter_opening)]
        exact ih' (d + 1)
      · cases d with
        | zero =>
            rw [closesFrom_zero hx]
            simp [eq_comm]
        | succ d =>
            rw [closesFrom_step hx (by simp) (fun _ => depthAfter_closing_succ)]
            exact ih' d
      · rw [closesFrom_step hx (fun h => hc h.1) (fun _ => depthAfter_other ho hc)]
        split
        · next h => exact absurd (Option.some.inj h) ho
        · next h => exact absurd (Option.some.inj h) hc
        · exact ih' d

/-- The search to the left finds where a loop was opened that `depth` closed ones stand behind. -/
theorem searchLeft_eq_some_iff :
    p.searchLeft j d = some i ↔ p.OpensBefore d j i := by
  induction j generalizing d with
  | zero =>
      constructor
      · intro h
        exact nomatch h
      · intro h
        exact absurd h not_opensBefore_zero
  | succ j ih =>
      unfold searchLeft
      cases hx : p[j]? with
      | none =>
          rw [opensBefore_step (e := d) (by simp [hx])]
          · exact ih
          · intro o n hj
            rw [hj] at hx
            rw [stretch_concat_of_none hx]
      | some x =>
          rcases x.bracket_cases with rfl | rfl | ⟨ho, hc⟩
          · cases d with
            | zero =>
                rw [opensBefore_zero hx]
                simp [eq_comm]
            | succ d =>
                rw [opensBefore_step (e := d) (by simp)]
                · exact ih
                · intro o n hj
                  rw [hj] at hx
                  rw [stretch_concat hx, depthAfter_concat_opening]
                  simp
          · rw [opensBefore_step (e := d + 1) (by simp [hx])]
            · exact ih
            · intro o n hj
              rw [hj] at hx
              rw [stretch_concat hx, depthAfter_concat_closing]
          · rw [opensBefore_step (e := d) (by simp [hx, ho])]
            · split
              · next h => exact absurd (Option.some.inj h) hc
              · next h => exact absurd (Option.some.inj h) ho
              · exact ih
            · intro o n hj
              rw [hj] at hx
              rw [stretch_concat hx, depthAfter_concat_other ho hc]

/-- The partner of a `loopForward` is the bracket that is matched with it. -/
theorem partnerRight_eq_some_iff (hi : p[i]? = some .opening) :
    p.partnerRight i = some j ↔ p.Matched i j := by
  obtain ⟨hlt, -⟩ := Array.getElem?_eq_some_iff.mp hi
  rw [matched_iff_closesFrom hi]
  exact searchRight_eq_some_iff (by omega)

theorem partnerLeft_eq_some_iff (hj : p[j]? = some .closing) :
    p.partnerLeft j = some i ↔ p.Matched i j := by
  rw [matched_iff_opensBefore hj]
  exact searchLeft_eq_some_iff

/-- A `loopForward` without a partner is matched with nothing. -/
theorem partnerRight_eq_none_iff (hi : p[i]? = some .opening) :
    p.partnerRight i = none ↔ ∀ j, ¬ p.Matched i j := by
  rw [Option.eq_none_iff_forall_ne_some]
  exact forall_congr' fun j => not_congr (partnerRight_eq_some_iff hi)

theorem partnerLeft_eq_none_iff (hj : p[j]? = some .closing) :
    p.partnerLeft j = none ↔ ∀ i, ¬ p.Matched i j := by
  rw [Option.eq_none_iff_forall_ne_some]
  exact forall_congr' fun i => not_congr (partnerLeft_eq_some_iff hj)

-- ── The pass with a stack ────────────────────────────────────────────────────────

theorem pairsFrom_other {stack : List Nat} {xs : List Element} (ho : x ≠ .opening)
    (hc : x ≠ .closing) : pairsFrom i stack (x :: xs) = pairsFrom (i + 1) stack xs := by
  rw [pairsFrom]
  · exact ho
  · exact fun _ _ h _ => hc h

/-- No pair begins where no loop is opened. -/
theorem begins_after (hx : p[i]? = some x) (ho : x ≠ .opening) :
    (i ≤ o ∧ p.Matched o c) ↔ (i + 1 ≤ o ∧ p.Matched o c) := by
  constructor
  · rintro ⟨hle, hm⟩
    have hne : i ≠ o := by
      rintro rfl
      exact ho (Option.some.inj (hx.symm.trans hm.opens))
    exact ⟨by omega, hm⟩
  · rintro ⟨hle, hm⟩
    exact ⟨by omega, hm⟩

/-- What the pass finds from place `i` on: the pairs that begin there, and the ends of the loops on
    the stack. The loop `k` places below the top of the stack has `k` loops inside it. -/
theorem mem_pairsFrom_iff {stack : List Nat} {xs : List Element} (hxs : p.toList.drop i = xs) :
    (o, c) ∈ pairsFrom i stack xs ↔
      (i ≤ o ∧ p.Matched o c) ∨ ∃ k, stack[k]? = some o ∧ p.ClosesFrom k i c := by
  induction xs generalizing i stack with
  | nil =>
      have hi : p.size ≤ i := by
        rw [List.drop_eq_nil_iff] at hxs
        simpa using hxs
      constructor
      · intro h
        exact nomatch h
      · rintro (⟨ho, hm⟩ | ⟨k, -, hk⟩)
        · obtain ⟨hlt, -⟩ := Array.getElem?_eq_some_iff.mp hm.opens
          omega
        · exact absurd hk (not_closesFrom_of_none (by simpa using hi))
  | cons x xs ih =>
      have hx : p[i]? = some x := by
        rw [← Array.getElem?_toList, ← List.head?_drop, hxs]
        rfl
      have hxs' : p.toList.drop (i + 1) = xs := by
        rw [drop_toList hx] at hxs
        exact (List.cons.inj hxs).2
      have ih' (stack : List Nat) : (o, c) ∈ pairsFrom (i + 1) stack xs ↔
          (i + 1 ≤ o ∧ p.Matched o c) ∨ ∃ k, stack[k]? = some o ∧ p.ClosesFrom k (i + 1) c :=
        ih hxs'
      rcases x.bracket_cases with rfl | rfl | ⟨ho, hc⟩
      · have hstep (k : Nat) : p.ClosesFrom k i c ↔ p.ClosesFrom (k + 1) (i + 1) c :=
          closesFrom_step hx (by simp) (fun _ => depthAfter_opening)
        refine Iff.trans (ih' (i :: stack)) ?_
        constructor
        · rintro (⟨hle, hm⟩ | ⟨k, hk, hcl⟩)
          · exact Or.inl ⟨by omega, hm⟩
          · cases k with
            | zero =>
                obtain rfl : i = o := Option.some.inj hk
                exact Or.inl ⟨Nat.le_refl i, (matched_iff_closesFrom hx).mpr hcl⟩
            | succ k => exact Or.inr ⟨k, hk, (hstep k).mpr hcl⟩
        · rintro (⟨hle, hm⟩ | ⟨k, hk, hcl⟩)
          · rcases Nat.eq_or_lt_of_le hle with rfl | hlt
            · exact Or.inr ⟨0, rfl, (matched_iff_closesFrom hx).mp hm⟩
            · exact Or.inl ⟨hlt, hm⟩
          · exact Or.inr ⟨k + 1, hk, (hstep k).mp hcl⟩
      · have hstep (k : Nat) : p.ClosesFrom (k + 1) i c ↔ p.ClosesFrom k (i + 1) c :=
          closesFrom_step hx (by simp) (fun _ => depthAfter_closing_succ)
        rw [begins_after hx (by simp)]
        cases stack with
        | nil =>
            refine Iff.trans (ih' []) ?_
            simp
        | cons a stack =>
            refine Iff.trans List.mem_cons ?_
            rw [ih' stack]
            constructor
            · rintro (heq | h | ⟨k, hk, hcl⟩)
              · obtain ⟨rfl, rfl⟩ := Prod.mk.inj heq
                exact Or.inr ⟨0, rfl, (closesFrom_zero hx).mpr rfl⟩
              · exact Or.inl h
              · exact Or.inr ⟨k + 1, hk, (hstep k).mpr hcl⟩
            · rintro (h | ⟨k, hk, hcl⟩)
              · exact Or.inr (Or.inl h)
              · cases k with
                | zero =>
                    obtain rfl : a = o := Option.some.inj hk
                    obtain rfl := (closesFrom_zero hx).mp hcl
                    exact Or.inl rfl
                | succ k => exact Or.inr (Or.inr ⟨k, hk, (hstep k).mp hcl⟩)
      · rw [pairsFrom_other ho hc, begins_after hx ho, ih' stack]
        have hstep (k : Nat) : p.ClosesFrom k i c ↔ p.ClosesFrom k (i + 1) c :=
          closesFrom_step hx (fun h => hc h.1) (fun _ => depthAfter_other ho hc)
        simp only [hstep]

/-- The pass with a stack finds exactly the brackets that belong together. -/
theorem mem_pairs_iff : (i, j) ∈ p.pairs ↔ p.Matched i j := by
  refine Iff.trans (mem_pairsFrom_iff List.drop_zero) ?_
  simp

-- ── One to one, and never crossing ───────────────────────────────────────────────

/-- A `loopForward` is matched with one `loopBack` only. -/
theorem Matched.right_unique {j' : Nat} (h : p.Matched i j) (h' : p.Matched i j') : j = j' := by
  have hr := (partnerRight_eq_some_iff h.opens).mpr h
  have hr' := (partnerRight_eq_some_iff h'.opens).mpr h'
  exact Option.some.inj (hr.symm.trans hr')

theorem Matched.left_unique {i' : Nat} (h : p.Matched i j) (h' : p.Matched i' j) : i = i' := by
  have hl := (partnerLeft_eq_some_iff h.closes).mpr h
  have hl' := (partnerLeft_eq_some_iff h'.closes).mpr h'
  exact Option.some.inj (hl.symm.trans hl')

/-- No bracket opens one loop and closes another. -/
theorem Matched.opens_ne_closes {i' j' : Nat} (h : p.Matched i j) (h' : p.Matched i' j') :
    i ≠ j' := by
  rintro rfl
  have heq := h.opens.symm.trans h'.closes
  simp at heq

/-- A loop that is opened inside another one is closed inside of it: up to the end of the outer
    loop the inner bracket alone keeps the depth above zero. -/
theorem Matched.lt_of_inside {i' j' : Nat} (h : p.Matched i j) (h' : p.Matched i' j')
    (hi : i < i') (hj : i' < j) : j' < j := by
  refine Nat.lt_of_not_le fun hle => ?_
  obtain ⟨a, rfl⟩ := Nat.exists_eq_add_of_le (Nat.succ_le_of_lt hi)
  obtain ⟨b, rfl⟩ := Nat.exists_eq_add_of_le (Nat.succ_le_of_lt hj)
  obtain ⟨e, rfl⟩ := Nat.exists_eq_add_of_le hle
  rw [show i.succ + a = i + 1 + a by omega] at *
  have houter : p.Matched i (i + 1 + (a + (b + 1))) := by
    rw [show i + 1 + (a + (b + 1)) = (i + 1 + a).succ + b by omega]
    exact h
  have hinner : p.Matched (i + 1 + a) (i + 1 + a + 1 + (b + e)) := by
    rw [← Nat.add_assoc]
    exact h'
  obtain ⟨-, -, h0⟩ := matched_iff.mp houter
  obtain ⟨ho, -, h0'⟩ := matched_iff.mp hinner
  rw [stretch_add, stretch_succ ho, depthAfter_append_eq_some_iff] at h0
  rw [stretch_add, depthAfter_append_eq_some_iff] at h0'
  obtain ⟨m, -, hm⟩ := h0
  obtain ⟨q, hq, -⟩ := h0'
  -- The part that both loops share: from depth `m + 1` it would have to lead to `q + (m + 1)`.
  have hshared := depthAfter_add hq (m + 1)
  rw [Nat.zero_add, ← depthAfter_opening, hm] at hshared
  have hzero := Option.some.inj hshared
  omega

/-- Two pairs are the same, lie side by side, or one lies inside the other. -/
theorem Matched.nested_or_disjoint {i' j' : Nat} (h : p.Matched i j) (h' : p.Matched i' j') :
    (i = i' ∧ j = j') ∨ j < i' ∨ j' < i ∨ (i < i' ∧ j' < j) ∨ (i' < i ∧ j < j') := by
  have hne := h.opens_ne_closes h'
  have hne' := h'.opens_ne_closes h
  rcases Nat.lt_trichotomy i i' with hlt | rfl | hgt
  · rcases Nat.lt_or_ge i' j with hin | hout
    · exact Or.inr (Or.inr (Or.inr (Or.inl ⟨hlt, h.lt_of_inside h' hlt hin⟩)))
    · exact Or.inr (Or.inl (by omega))
  · exact Or.inl ⟨rfl, h.right_unique h'⟩
  · rcases Nat.lt_or_ge i j' with hin | hout
    · exact Or.inr (Or.inr (Or.inr (Or.inr ⟨hgt, h'.lt_of_inside h hgt hin⟩)))
    · exact Or.inr (Or.inr (Or.inl (by omega)))

end TapeMachine.Program
