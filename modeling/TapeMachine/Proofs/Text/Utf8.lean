import Mathlib.Tactic.SplitIfs
import TapeMachine.Text.Decoding
import TapeMachine.Text.Half

/-!
# Sequences of UTF-8

Which sequences of bytes the decoder of UTF-8 takes for one character. The bytes of a character are
known to the standard library (`String.utf8EncodeChar`), by whose rule no character has two forms,
and neither halves of pairs nor code points past the last one have any. **The decoder takes these
and no others**:

* `complete?_iff` — a sequence that has begun is completed exactly by the bytes that a character has
  behind its first. There is a lemma for each length, which puts both sides into numbers.
* `decodeUtf8From_cons_eq_ok_iff` — so where a character begins, decoding goes on behind the bytes of
  one, or fails.
-/

namespace TapeMachine.Text

/-- The code point to which bytes complete a sequence, if each of them may come next. -/
def Partial.complete? (p : Partial) : List UInt8 → Option Nat
  | []      => some p.value
  | b :: bs => if p.accepts b then (p.extend b).complete? bs else none

variable {lead b : UInt8} {w : List UInt8} {p : Partial} {m v : Nat} {c : Char}

/-- How many bytes follow a lead byte, by its number. -/
theorem followers_eq_some_iff : followers lead = some m ↔
    (m = 0 ∧ lead.toNat < 0x80) ∨ (m = 1 ∧ 0xc2 ≤ lead.toNat ∧ lead.toNat < 0xe0)
      ∨ (m = 2 ∧ 0xe0 ≤ lead.toNat ∧ lead.toNat < 0xf0)
      ∨ (m = 3 ∧ 0xf0 ≤ lead.toNat ∧ lead.toNat < 0xf5) := by
  simp only [followers, UInt8.lt_iff_toNat_lt, UInt8.reduceToNat]
  split_ifs <;> simp only [Option.some.injEq, false_iff] <;> omega

/-- The bytes that may come second. Four lead bytes leave out some that the others allow. -/
theorem accepts_start_iff : (Partial.start lead m).accepts b = true ↔
    (0x80 ≤ b.toNat ∧ b.toNat ≤ 0xbf)
      ∧ (lead.toNat = 0xe0 → 0xa0 ≤ b.toNat) ∧ (lead.toNat = 0xed → b.toNat ≤ 0x9f)
      ∧ (lead.toNat = 0xf0 → 0x90 ≤ b.toNat) ∧ (lead.toNat = 0xf4 → b.toNat ≤ 0x8f) := by
  simp only [Partial.accepts, Partial.start, secondRange, Bool.and_eq_true, decide_eq_true_eq,
    UInt8.le_iff_toNat_le, ← UInt8.toNat_inj, UInt8.reduceToNat]
  split_ifs <;> simp only [UInt8.reduceToNat] <;> omega

/-- The bytes that may come after the second. -/
theorem accepts_extend_iff {a : UInt8} :
    (p.extend a).accepts b = true ↔ 0x80 ≤ b.toNat ∧ b.toNat ≤ 0xbf := by
  simp only [Partial.accepts, Partial.extend, Bool.and_eq_true, decide_eq_true_eq,
    UInt8.le_iff_toNat_le, UInt8.reduceToNat]

/-- The bits of a character in a first byte are what is left of the byte below its mark. -/
theorem leadBits_eq : leadBits lead = lead.toNat
    % (if lead.toNat < 0xe0 then 32 else if lead.toNat < 0xf0 then 16 else 8) := by
  simp only [leadBits, UInt8.lt_iff_toNat_lt, UInt8.reduceToNat]
  split_ifs <;> rfl

/-- A sequence is completed by a byte that it accepts and by the bytes that complete it then. -/
theorem complete?_cons_eq_some_iff : p.complete? (b :: w) = some v ↔
    p.accepts b = true ∧ (p.extend b).complete? w = some v := by
  rw [Partial.complete?]
  split_ifs with h
  · exact ⟨fun hv => ⟨h, hv⟩, And.right⟩
  · exact ⟨nofun, fun hv => absurd hv.1 h⟩

/-- The bytes of a character, by its code point. -/
theorem utf8EncodeChar_eq (c : Char) : String.utf8EncodeChar c
    = if c.toNat ≤ 0x7f then [UInt8.ofNat c.toNat]
      else if c.toNat ≤ 0x7ff then
        [UInt8.ofNat (c.toNat / 64 % 32 + 0xc0), UInt8.ofNat (c.toNat % 64 + 0x80)]
      else if c.toNat ≤ 0xffff then
        [UInt8.ofNat (c.toNat / 4096 % 16 + 0xe0), UInt8.ofNat (c.toNat / 64 % 64 + 0x80),
          UInt8.ofNat (c.toNat % 64 + 0x80)]
      else
        [UInt8.ofNat (c.toNat / 262144 % 8 + 0xf0), UInt8.ofNat (c.toNat / 4096 % 64 + 0x80),
          UInt8.ofNat (c.toNat / 64 % 64 + 0x80), UInt8.ofNat (c.toNat % 64 + 0x80)] := rfl

/-- A code point is no half of a pair. -/
theorem toNat_bounds (c : Char) :
    c.toNat < 0xd800 ∨ 0xdfff < c.toNat ∧ c.toNat < 0x110000 := c.valid

theorem ofNat_eq_iff {n : Nat} (hn : n < 256) : UInt8.ofNat n = b ↔ b.toNat = n := by
  rw [← UInt8.toNat_inj, UInt8.toNat_ofNat_of_lt' hn, eq_comm]

/-- When a character is written in two bytes, and which they are. -/
theorem utf8EncodeChar_eq_two_iff : String.utf8EncodeChar c = [lead, b] ↔
    (0x80 ≤ c.toNat ∧ c.toNat ≤ 0x7ff)
      ∧ lead.toNat = c.toNat / 64 + 0xc0 ∧ b.toNat = c.toNat % 64 + 0x80 := by
  rw [utf8EncodeChar_eq]
  split_ifs
  · exact iff_of_false (by simp) (by omega)
  · simp only [List.cons.injEq, and_true]
    rw [ofNat_eq_iff (by omega), ofNat_eq_iff (by omega)]
    omega
  · exact iff_of_false (by simp) (by omega)
  · exact iff_of_false (by simp) (by omega)

/-- When a character is written in three bytes, and which they are. -/
theorem utf8EncodeChar_eq_three_iff {b' : UInt8} : String.utf8EncodeChar c = [lead, b, b'] ↔
    (0x800 ≤ c.toNat ∧ c.toNat ≤ 0xffff)
      ∧ lead.toNat = c.toNat / 4096 + 0xe0 ∧ b.toNat = c.toNat / 64 % 64 + 0x80
      ∧ b'.toNat = c.toNat % 64 + 0x80 := by
  rw [utf8EncodeChar_eq]
  split_ifs
  · exact iff_of_false (by simp) (by omega)
  · exact iff_of_false (by simp) (by omega)
  · simp only [List.cons.injEq, and_true]
    rw [ofNat_eq_iff (by omega), ofNat_eq_iff (by omega), ofNat_eq_iff (by omega)]
    omega
  · exact iff_of_false (by simp) (by omega)

/-- When a character is written in four bytes, and which they are. -/
theorem utf8EncodeChar_eq_four_iff {b' b'' : UInt8} :
    String.utf8EncodeChar c = [lead, b, b', b''] ↔
    0x10000 ≤ c.toNat
      ∧ lead.toNat = c.toNat / 262144 + 0xf0 ∧ b.toNat = c.toNat / 4096 % 64 + 0x80
      ∧ b'.toNat = c.toNat / 64 % 64 + 0x80 ∧ b''.toNat = c.toNat % 64 + 0x80 := by
  have hc := toNat_bounds c
  rw [utf8EncodeChar_eq]
  split_ifs
  · exact iff_of_false (by simp) (by omega)
  · exact iff_of_false (by simp) (by omega)
  · exact iff_of_false (by simp) (by omega)
  · simp only [List.cons.injEq, and_true]
    rw [ofNat_eq_iff (by omega), ofNat_eq_iff (by omega), ofNat_eq_iff (by omega),
      ofNat_eq_iff (by omega)]
    omega

/-- Two bytes make a sequence exactly if a character is written so. -/
theorem complete?_iff_two :
    followers lead = some 1 ∧ (Partial.start lead 1).complete? [b] = some v
      ↔ ∃ c : Char, c.toNat = v ∧ String.utf8EncodeChar c = [lead, b] := by
  have hvalue : ((Partial.start lead 1).extend b).value = leadBits lead * 64 + b.toNat % 64 := rfl
  rw [followers_eq_some_iff, complete?_cons_eq_some_iff, accepts_start_iff, Partial.complete?,
    Option.some.injEq, hvalue, leadBits_eq]
  constructor
  · rintro ⟨hlead, hb, rfl⟩
    replace hlead : 0xc2 ≤ lead.toNat ∧ lead.toNat < 0xe0 := by omega
    rw [if_pos hlead.2]
    have hv : (lead.toNat % 32 * 64 + b.toNat % 64).isValidChar := Or.inl (by omega)
    refine ⟨Char.ofNat _, toNat_ofNat hv, ?_⟩
    rw [utf8EncodeChar_eq_two_iff, toNat_ofNat hv]
    omega
  · rintro ⟨c, rfl, hc⟩
    rw [utf8EncodeChar_eq_two_iff] at hc
    rw [if_pos (by omega)]
    omega

/-- Three bytes make a sequence exactly if a character is written so. -/
theorem complete?_iff_three {b' : UInt8} :
    followers lead = some 2 ∧ (Partial.start lead 2).complete? [b, b'] = some v
      ↔ ∃ c : Char, c.toNat = v ∧ String.utf8EncodeChar c = [lead, b, b'] := by
  have hvalue : (((Partial.start lead 2).extend b).extend b').value
      = (leadBits lead * 64 + b.toNat % 64) * 64 + b'.toNat % 64 := rfl
  rw [followers_eq_some_iff, complete?_cons_eq_some_iff, complete?_cons_eq_some_iff,
    accepts_start_iff, accepts_extend_iff, Partial.complete?, Option.some.injEq, hvalue, leadBits_eq]
  constructor
  · rintro ⟨hlead, hb, hb', rfl⟩
    replace hlead : 0xe0 ≤ lead.toNat ∧ lead.toNat < 0xf0 := by omega
    rw [if_neg (by omega), if_pos hlead.2]
    -- no half of a pair, because of the narrow range behind the lead byte 0xed
    have hv : ((lead.toNat % 16 * 64 + b.toNat % 64) * 64 + b'.toNat % 64).isValidChar := by
      unfold Nat.isValidChar
      omega
    refine ⟨Char.ofNat _, toNat_ofNat hv, ?_⟩
    rw [utf8EncodeChar_eq_three_iff, toNat_ofNat hv]
    omega
  · rintro ⟨c, rfl, hc⟩
    rw [utf8EncodeChar_eq_three_iff] at hc
    have hv := toNat_bounds c
    rw [if_neg (by omega), if_pos (by omega)]
    omega

/-- Four bytes make a sequence exactly if a character is written so. -/
theorem complete?_iff_four {b' b'' : UInt8} :
    followers lead = some 3 ∧ (Partial.start lead 3).complete? [b, b', b''] = some v
      ↔ ∃ c : Char, c.toNat = v ∧ String.utf8EncodeChar c = [lead, b, b', b''] := by
  have hvalue : ((((Partial.start lead 3).extend b).extend b').extend b'').value
      = ((leadBits lead * 64 + b.toNat % 64) * 64 + b'.toNat % 64) * 64 + b''.toNat % 64 := rfl
  rw [followers_eq_some_iff, complete?_cons_eq_some_iff, complete?_cons_eq_some_iff,
    complete?_cons_eq_some_iff, accepts_start_iff, accepts_extend_iff, accepts_extend_iff,
    Partial.complete?, Option.some.injEq, hvalue, leadBits_eq]
  constructor
  · rintro ⟨hlead, hb, hb', hb'', rfl⟩
    replace hlead : 0xf0 ≤ lead.toNat ∧ lead.toNat < 0xf5 := by omega
    rw [if_neg (by omega), if_neg (by omega)]
    -- not past the last code point, because of the narrow range behind the lead byte 0xf4
    have hv : (((lead.toNat % 8 * 64 + b.toNat % 64) * 64 + b'.toNat % 64) * 64
        + b''.toNat % 64).isValidChar := by
      unfold Nat.isValidChar
      omega
    refine ⟨Char.ofNat _, toNat_ofNat hv, ?_⟩
    rw [utf8EncodeChar_eq_four_iff, toNat_ofNat hv]
    omega
  · rintro ⟨c, rfl, hc⟩
    rw [utf8EncodeChar_eq_four_iff] at hc
    have hv := toNat_bounds c
    rw [if_neg (by omega), if_neg (by omega)]
    omega

/-- **A longer sequence is completed exactly by the bytes that a character has behind its first.** -/
theorem complete?_iff (hw : w ≠ []) :
    followers lead = some w.length ∧ (Partial.start lead w.length).complete? w = some v
      ↔ ∃ c : Char, c.toNat = v ∧ String.utf8EncodeChar c = lead :: w := by
  match w, hw with
  | [b], _ => exact complete?_iff_two
  | [b, b'], _ => exact complete?_iff_three
  | [b, b', b''], _ => exact complete?_iff_four
  | b :: b' :: b'' :: b₃ :: rest, _ =>
      constructor
      · rintro ⟨hf, -⟩
        rw [followers_eq_some_iff] at hf
        simp only [List.length_cons] at hf
        omega
      · rintro ⟨c, -, hc⟩
        have hlen := congrArg List.length hc
        rw [utf8EncodeChar_eq] at hlen
        split_ifs at hlen <;> simp at hlen

/-- When a character is written in one byte, and which it is. -/
theorem utf8EncodeChar_eq_one_iff :
    String.utf8EncodeChar c = [lead] ↔ c.toNat ≤ 0x7f ∧ lead.toNat = c.toNat := by
  rw [utf8EncodeChar_eq]
  split_ifs
  · simp only [List.cons.injEq, and_true]
    rw [ofNat_eq_iff (by omega)]
    omega
  · exact iff_of_false (by simp) (by omega)
  · exact iff_of_false (by simp) (by omega)
  · exact iff_of_false (by simp) (by omega)

-- ── One character after the other ────────────────────────────────────────────────

variable {position : Nat} {chars cs : List Char} {bs : List UInt8}

/-- A sequence that has begun is decoded with the bytes that complete it. -/
theorem decodeUtf8From_some_eq_ok_iff {p : Partial} (hm : p.missing = m + 1) :
    decodeUtf8From position chars (some p) bs = .ok cs ↔ ∃ w rest v, bs = w ++ rest
      ∧ w.length = m + 1 ∧ p.complete? w = some v
      ∧ decodeUtf8From (position + w.length) (Char.ofNat v :: chars) none rest = .ok cs := by
  -- the bytes come one at a time, so how many are missing and what has begun change with each
  induction bs generalizing p m position with
  | nil =>
      constructor
      · intro h
        exact nomatch h
      · rintro ⟨w, rest, v, hb, hlen, -⟩
        obtain ⟨rfl, rfl⟩ := List.append_eq_nil_iff.mp hb.symm
        exact nomatch hlen
  | cons b bs ih =>
      rw [decodeUtf8From]
      constructor
      · intro h
        split_ifs at h with ha hone
        · obtain rfl : m = 0 := by omega
          exact ⟨[b], bs, _, rfl, rfl, complete?_cons_eq_some_iff.mpr ⟨ha, rfl⟩, h⟩
        · obtain ⟨m, rfl⟩ := Nat.exists_eq_succ_of_ne_zero (show m ≠ 0 by omega)
          have hm' : (p.extend b).missing = m + 1 := congrArg Nat.pred hm
          obtain ⟨w, rest, v, rfl, hlen, hc, h⟩ := (ih hm').mp h
          refine ⟨b :: w, rest, v, rfl, congrArg Nat.succ hlen,
            complete?_cons_eq_some_iff.mpr ⟨ha, hc⟩, ?_⟩
          rw [List.length_cons, Nat.add_comm w.length, ← Nat.add_assoc]
          exact h
      · rintro ⟨_ | ⟨b', w⟩, rest, v, hb, hlen, hc, h⟩
        · exact nomatch hlen
        · obtain ⟨rfl, rfl⟩ := List.cons.inj hb
          obtain ⟨ha, hc⟩ := complete?_cons_eq_some_iff.mp hc
          rw [if_pos ha]
          split_ifs with hone
          · rw [List.length_cons] at hlen
            obtain rfl : w = [] := List.eq_nil_of_length_eq_zero (by omega)
            obtain rfl := Option.some.inj hc
            exact h
          · obtain ⟨m, rfl⟩ := Nat.exists_eq_succ_of_ne_zero (show m ≠ 0 by omega)
            have hm' : (p.extend b).missing = m + 1 := congrArg Nat.pred hm
            refine (ih hm').mpr ⟨w, rest, v, rfl, Nat.succ.inj hlen, hc, ?_⟩
            rw [List.length_cons, Nat.add_comm w.length, ← Nat.add_assoc] at h
            exact h

/-- Where a character begins, its bytes are decoded to it, and no others are decoded. -/
theorem decodeUtf8From_cons_eq_ok_iff :
    decodeUtf8From position chars none (b :: bs) = .ok cs ↔ ∃ c rest,
      b :: bs = String.utf8EncodeChar c ++ rest
      ∧ decodeUtf8From (position + (String.utf8EncodeChar c).length) (c :: chars) none rest
        = .ok cs := by
  constructor
  · intro h
    rw [decodeUtf8From] at h
    split at h
    · exact nomatch h
    · next hf =>
        rw [followers_eq_some_iff] at hf
        have hv : b.toNat.isValidChar := Or.inl (by omega)
        have hw : String.utf8EncodeChar (Char.ofNat b.toNat) = [b] := by
          rw [utf8EncodeChar_eq_one_iff, toNat_ofNat hv]
          omega
        refine ⟨Char.ofNat b.toNat, bs, ?_, ?_⟩
        · rw [hw]
          rfl
        · rw [hw]
          exact h
    · next missing hpos hf =>
        obtain ⟨m, rfl⟩ := Nat.exists_eq_add_one_of_ne_zero hpos
        obtain ⟨w, rest, v, rfl, hlen, hc, h⟩ := (decodeUtf8From_some_eq_ok_iff rfl).mp h
        rw [← hlen] at hf hc
        have hne : w ≠ [] := List.ne_nil_of_length_eq_add_one hlen
        obtain ⟨c, rfl, hw⟩ := (complete?_iff hne).mp ⟨hf, hc⟩
        rw [Char.ofNat_toNat] at h
        refine ⟨c, rest, ?_, ?_⟩
        · rw [hw]
          rfl
        · rw [hw, List.length_cons, Nat.add_comm w.length, ← Nat.add_assoc]
          exact h
  · rintro ⟨c, rest, hb, h⟩
    rcases hw : String.utf8EncodeChar c with _ | ⟨lead, _ | ⟨b', w⟩⟩
    · exact absurd hw String.utf8EncodeChar_ne_nil
    · rw [hw] at hb h
      obtain ⟨rfl, rfl⟩ := List.cons.inj hb
      obtain ⟨hc, hlead⟩ := utf8EncodeChar_eq_one_iff.mp hw
      have hf : followers b = some 0 := followers_eq_some_iff.mpr (Or.inl ⟨rfl, by omega⟩)
      rw [decodeUtf8From, hf, hlead, Char.ofNat_toNat]
      exact h
    · rw [hw] at hb h
      obtain ⟨rfl, rfl⟩ := List.cons.inj hb
      obtain ⟨hf, hc⟩ := (complete?_iff (List.cons_ne_nil b' w)).mpr ⟨c, rfl, hw⟩
      rw [decodeUtf8From, hf]
      refine (decodeUtf8From_some_eq_ok_iff rfl).mpr ⟨b' :: w, rest, c.toNat, rfl, rfl, hc, ?_⟩
      rw [Char.ofNat_toNat, Nat.add_assoc, Nat.add_comm 1]
      exact h

end TapeMachine.Text
