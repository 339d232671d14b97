/-!
# Halves of pairs

Text made of 16-bit units can hold one half of a pair alone, and no character stands for that. Such
a half, U+D800 to U+DFFF, is carried by the private character whose code point is 0x100000 more, so
that a text is a text of characters still. `Text.codePoint` gives the half back, which
`codePoint_ofCodePoint` says.
-/

namespace TapeMachine.Text

/-- How far a half is from the character that carries it. -/
def halfOffset : Nat := 0x100000

/-- Whether a code point is one half of a pair. -/
def isHalfPoint (n : Nat) : Bool :=
  0xd800 ≤ n && n < 0xe000

/-- The character of a code point. -/
def ofCodePoint (n : Nat) : Char :=
  if isHalfPoint n then Char.ofNat (n + halfOffset) else Char.ofNat n

/-- Whether a character carries one half of a pair. -/
def isHalf (c : Char) : Bool :=
  halfOffset ≤ c.toNat && isHalfPoint (c.toNat - halfOffset)

/-- The code point that a character stands for. -/
def codePoint (c : Char) : Nat :=
  if isHalf c then c.toNat - halfOffset else c.toNat

/-- The character of a code point has that code point. -/
theorem toNat_ofNat {n : Nat} (h : n.isValidChar) : (Char.ofNat n).toNat = n := by
  rw [Char.ofNat, dif_pos h]
  rfl

/-- The character that carries a half stands for that half. -/
theorem codePoint_ofCodePoint {n : Nat} (h : isHalfPoint n) : codePoint (ofCodePoint n) = n := by
  have hv : (n + halfOffset).isValidChar := by
    simp only [isHalfPoint, Bool.and_eq_true, decide_eq_true_eq] at h
    rw [halfOffset]
    exact Or.inr ⟨by omega, by omega⟩
  have hc : (ofCodePoint n).toNat = n + halfOffset := by
    rw [ofCodePoint, if_pos h, toNat_ofNat hv]
  simp [codePoint, isHalf, hc, h]

end TapeMachine.Text
