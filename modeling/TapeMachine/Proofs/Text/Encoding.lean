import TapeMachine.Proofs.Text.Utf8

/-!
# Characters and their bytes

Decoding undoes writing: bytes are decoded to characters **exactly if they are what these characters
are written as**, each by itself and one behind the other. `Spells` says that they are, in any of
the encodings, and `decode_eq_ok_iff` is proved for each decoder by induction on the bytes and on
the spelling. All other bytes are refused.
-/

namespace TapeMachine.Text

/-- The bytes that write a character, if the encoding has it. -/
def Encoding.bytesOf? : Encoding → Char → Option (List UInt8)
  | utf8, c   => some (String.utf8EncodeChar c)
  | ascii, c  => if c.toNat < 128 then some [c.toNat.toUInt8] else none
  | latin1, c => if c.toNat < 256 then some [c.toNat.toUInt8] else none

/-- Bytes write a row of characters. -/
inductive Spells (encoding : Encoding) : List Char → List UInt8 → Prop where
  | nil : Spells encoding [] []
  | cons {c : Char} {cs : List Char} {w bs : List UInt8} (hw : encoding.bytesOf? c = some w)
      (h : Spells encoding cs bs) : Spells encoding (c :: cs) (w ++ bs)

variable {position start : Nat} {chars cs : List Char} {bs : List UInt8} {encoding : Encoding}

/-- The characters in front of the rest that is decoded are kept. -/
theorem decodeUtf8From_eq_ok_iff :
    decodeUtf8From position chars none bs = .ok cs
      ↔ ∃ ds, cs = chars.reverse ++ ds ∧ Spells .utf8 ds bs := by
  constructor
  · intro h
    -- a character takes several bytes at once, so the induction is on their number
    induction hn : bs.length using Nat.strongRecOn generalizing position chars bs with
    | _ n ih =>
        cases bs with
        | nil =>
            obtain rfl := Except.ok.inj h
            exact ⟨[], (List.append_nil _).symm, .nil⟩
        | cons b bs =>
            obtain ⟨c, rest, hb, h⟩ := decodeUtf8From_cons_eq_ok_iff.mp h
            have hlt : rest.length < n := by
              have hpos := c.utf8Size_pos
              rw [← hn, hb, List.length_append, String.length_utf8EncodeChar]
              omega
            obtain ⟨ds, rfl, hs⟩ := ih _ hlt h rfl
            refine ⟨c :: ds, by simp, ?_⟩
            rw [hb]
            exact .cons rfl hs
  · rintro ⟨ds, rfl, hs⟩
    induction hs generalizing position chars with
    | nil => rw [List.append_nil, decodeUtf8From]
    | @cons c ds w bs hw hs ih =>
        obtain rfl := Option.some.inj hw
        rcases hb : String.utf8EncodeChar c ++ bs with _ | ⟨b, bs'⟩
        · exact absurd (List.append_eq_nil_iff.mp hb).1 String.utf8EncodeChar_ne_nil
        · refine decodeUtf8From_cons_eq_ok_iff.mpr ⟨c, bs, hb.symm, ?_⟩
          have hrest : decodeUtf8From (position + (String.utf8EncodeChar c).length) (c :: chars) none bs
              = .ok ((c :: chars).reverse ++ ds) := ih
          simpa using hrest

/-- An encoding of one byte for each character, up to a limit. -/
theorem oneByte_eq_some_iff {limit : Nat} (hlimit : limit ≤ 256) {c : Char} {w : List UInt8} :
    (if c.toNat < limit then some [c.toNat.toUInt8] else none) = some w
      ↔ ∃ b : UInt8, w = [b] ∧ b.toNat < limit ∧ c = Char.ofNat b.toNat := by
  constructor
  · intro h
    split_ifs at h with hc
    obtain rfl := Option.some.inj h
    have hb : c.toNat.toUInt8.toNat = c.toNat :=
      UInt8.toNat_ofNat_of_lt' (Nat.lt_of_lt_of_le hc hlimit)
    refine ⟨_, rfl, ?_, ?_⟩
    · rw [hb]
      exact hc
    · rw [hb, Char.ofNat_toNat]
  · rintro ⟨b, rfl, hb, rfl⟩
    rw [toNat_ofNat (Or.inl (by omega)), if_pos hb, Nat.toUInt8_eq, UInt8.ofNat_toNat]

theorem decodeAsciiFrom_eq_ok_iff :
    decodeAsciiFrom start chars bs = .ok cs
      ↔ ∃ ds, cs = chars.reverse ++ ds ∧ Spells .ascii ds bs := by
  constructor
  · intro h
    induction bs generalizing start chars with
    | nil =>
        obtain rfl := Except.ok.inj h
        exact ⟨[], (List.append_nil _).symm, .nil⟩
    | cons b bs ih =>
        rw [decodeAsciiFrom] at h
        split_ifs at h with hb
        obtain ⟨ds, rfl, hs⟩ := ih h
        refine ⟨Char.ofNat b.toNat :: ds, by simp, .cons (w := [b]) ?_ hs⟩
        exact (oneByte_eq_some_iff (by decide)).mpr ⟨b, rfl, UInt8.lt_iff_toNat_lt.mp hb, rfl⟩
  · rintro ⟨ds, rfl, hs⟩
    induction hs generalizing start chars with
    | nil => rw [List.append_nil, decodeAsciiFrom]
    | @cons c ds w bs hw hs ih =>
        obtain ⟨b, rfl, hb, rfl⟩ := (oneByte_eq_some_iff (by decide)).mp hw
        have hrest : decodeAsciiFrom (start + 1) (Char.ofNat b.toNat :: chars) bs
            = .ok ((Char.ofNat b.toNat :: chars).reverse ++ ds) := ih
        rw [List.singleton_append, decodeAsciiFrom, if_pos (UInt8.lt_iff_toNat_lt.mpr hb)]
        simpa using hrest

theorem spells_latin1_iff :
    Spells .latin1 cs bs ↔ cs = bs.map fun b => Char.ofNat b.toNat := by
  constructor
  · intro hs
    induction hs with
    | nil => rfl
    | @cons c ds w bs hw hs ih =>
        obtain ⟨b, rfl, -, rfl⟩ := (oneByte_eq_some_iff (by decide)).mp hw
        rw [ih]
        rfl
  · rintro rfl
    induction bs with
    | nil => exact .nil
    | cons b bs ih =>
        refine .cons (w := [b]) ?_ ih
        exact (oneByte_eq_some_iff (by decide)).mpr ⟨b, rfl, b.toNat_lt, rfl⟩

/-- **Bytes are decoded to characters exactly if they are what these are written as.** -/
theorem decode_eq_ok_iff : decode encoding bs = .ok cs ↔ Spells encoding cs bs := by
  cases encoding with
  | utf8 =>
      rw [decode, decodeUtf8From_eq_ok_iff]
      simp
  | ascii =>
      rw [decode, decodeAsciiFrom_eq_ok_iff]
      simp
  | latin1 =>
      rw [decode, Except.ok.injEq, spells_latin1_iff, eq_comm]

end TapeMachine.Text
