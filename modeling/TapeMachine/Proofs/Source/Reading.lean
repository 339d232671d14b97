import TapeMachine.Diagnostic
import TapeMachine.Proofs.Device.Buffer
import TapeMachine.Proofs.Source.Instructions
import TapeMachine.Proofs.Text.Encoding

/-!
# Programs in text files

A file that holds a program may be read as text. Its bytes are then decoded, every line end is made
a line feed, and the characters become bytes again, one for each. **The tokens are those of the
bytes of the file**, in all encodings, for three reasons:

* `Token.scan_bytesOf?` — the bytes that write one character are this character's token, or none. In
  UTF-8 the bytes of a longer sequence are all in the upper half, where there are no instructions.
* `Text.filterMap_unifyLineEnds` — a line end is no instruction, so it does not matter which it is.
* `Source.tokens_eq` — on the way back to bytes no character becomes an instruction.

Bytes that are no text in their encoding are a program that cannot be read.
-/

namespace TapeMachine

-- ── Characters in encodings ──────────────────────────────────────────────────────

namespace Token

/-- No byte outside ASCII is an instruction. -/
theorem ofByte?_eq_none {b : UInt8} (h : 0x80 ≤ b.toNat) : ofByte? b = none := by
  apply Option.eq_none_iff_forall_ne_some.mpr
  intro t ht
  rw [ofByte?_eq_some_iff] at ht
  subst ht
  cases t <;> exact absurd h (by decide)

/-- No character outside ASCII is one. -/
theorem ofChar?_eq_none {c : Char} (h : 0x80 ≤ c.toNat) : ofChar? c = none := by
  apply Option.eq_none_iff_forall_ne_some.mpr
  intro t ht
  have hlt := t.symbol_bounds.2
  rw [ofChar?_eq_some_iff.mp ht] at hlt
  omega

theorem scan_singleton (c : Char) : scan [Source.byteOf c] = (ofChar? c).toList := by
  rw [scan, List.filterMap_cons, Source.ofByte?_byteOf]
  cases ofChar? c <;> rfl

/-- The bytes of a character beyond the lower half are in the upper half. -/
theorem le_of_mem_utf8EncodeChar {c : Char} (hc : 0x80 ≤ c.toNat) :
    ∀ b ∈ String.utf8EncodeChar c, 0x80 ≤ b.toNat := by
  have hv := Text.toNat_bounds c
  have hup {n : Nat} (hn : 0x80 ≤ n) (hlt : n < 256) : 0x80 ≤ (UInt8.ofNat n).toNat := by
    rwa [UInt8.toNat_ofNat_of_lt' hlt]
  rw [Text.utf8EncodeChar_eq, if_neg (by omega)]
  split_ifs
  all_goals
    simp only [List.forall_mem_cons, List.not_mem_nil, IsEmpty.forall_iff, implies_true, and_true]
  · exact ⟨hup (by omega) (by omega), hup (by omega) (by omega)⟩
  · exact ⟨hup (by omega) (by omega), hup (by omega) (by omega), hup (by omega) (by omega)⟩
  · exact ⟨hup (by omega) (by omega), hup (by omega) (by omega), hup (by omega) (by omega),
      hup (by omega) (by omega)⟩

/-- **The bytes that write a character are its token**, or none if it is none. -/
theorem scan_bytesOf? {encoding : Text.Encoding} {c : Char} {w : List UInt8}
    (hw : encoding.bytesOf? c = some w) : scan w = (ofChar? c).toList := by
  have hone (hc : c.toNat < 256) : [c.toNat.toUInt8] = [Source.byteOf c] := by
    rw [Source.byteOf, if_pos hc]
  cases encoding with
  | utf8 =>
      obtain rfl := Option.some.inj hw
      by_cases hc : 0x80 ≤ c.toNat
      · rw [ofChar?_eq_none hc, scan]
        exact List.filterMap_eq_nil_iff.mpr fun b hb =>
          ofByte?_eq_none (le_of_mem_utf8EncodeChar hc b hb)
      · rw [Text.utf8EncodeChar_eq, if_pos (by omega)]
        exact (congrArg scan (hone (by omega))).trans (scan_singleton c)
  | ascii =>
      rw [Text.Encoding.bytesOf?] at hw
      split_ifs at hw with hc
      obtain rfl := Option.some.inj hw
      rw [hone (by omega), scan_singleton]
  | latin1 =>
      rw [Text.Encoding.bytesOf?] at hw
      split_ifs at hw with hc
      obtain rfl := Option.some.inj hw
      rw [hone hc, scan_singleton]

/-- Bytes that write characters hold the instructions that the characters are. -/
theorem scan_of_spells {encoding : Text.Encoding} {cs : List Char} {bs : List UInt8}
    (hs : Text.Spells encoding cs bs) : scan bs = cs.filterMap ofChar? := by
  induction hs with
  | nil => rfl
  | @cons c cs w bs hw hs ih =>
      have hsplit : scan (w ++ bs) = scan w ++ scan bs := List.filterMap_append
      rw [hsplit, scan_bytesOf? hw, ih, List.filterMap_cons]
      cases ofChar? c <;> rfl

end Token

/-- Line ends are no instructions, however they are written. -/
theorem Text.filterMap_unifyLineEnds (cs : List Char) :
    (unifyLineEnds cs).filterMap Token.ofChar? = cs.filterMap Token.ofChar? := by
  have hcr : Token.ofChar? '\r' = none := rfl
  have hlf : Token.ofChar? '\n' = none := rfl
  fun_induction unifyLineEnds cs with
  | case1 rest ih => simp only [List.filterMap_cons, hcr, hlf, ih]
  | case2 rest hrest ih => simp only [List.filterMap_cons, hcr, hlf, ih]
  | case3 c rest hc hc' ih => simp only [List.filterMap_cons, ih]
  | case4 => rfl

-- ── Streams read to their ends ───────────────────────────────────────────────────

namespace Source

/-- The tokens of the program that a stream holds. -/
def tokensFrom (h : Handle) (ds : Devices) : Except ReadError (List Token) :=
  (readFrom h ds).1.map tokens

variable {h : Handle} {ds : Devices} {encoding : Text.Encoding} {bs : List UInt8}

/-- A stream of bytes that none was taken from is read as these bytes. -/
theorem readFrom_bytes (hd : ds.device h.place = .bytes { contents := bs.toArray }) :
    (readFrom h ds).1 = .ok (.bytes bs) := by
  have hread : (h.read (.whole (-1)) ds).1
      = .ok (.bytes (Buffer.peek { contents := bs.toArray } (-1))) := by
    rw [Handle.read_eq, Devices.use_eq, hd]
    rfl
  show ofAnswer (h.read (.whole (-1)) ds).1 = _
  rw [hread, Buffer.peek_all]
  rfl

theorem readFrom_file (hd : ds.device h.place = .file encoding bs) :
    (readFrom h ds).1 = ofAnswer (Device.fileText encoding bs) := by
  show ofAnswer (h.read (.whole (-1)) ds).1 = _
  rw [Handle.read_eq, Devices.use_eq, hd]
  rfl

/-- Bytes that write characters are read as these, with every line end a line feed. -/
theorem readFrom_of_spells (hd : ds.device h.place = .file encoding bs) {cs : List Char}
    (hs : Text.Spells encoding cs bs) :
    (readFrom h ds).1 = .ok (.text (String.ofList (Text.unifyLineEnds cs))) := by
  rw [readFrom_file hd, Device.fileText, Text.decode_eq_ok_iff.mpr hs]
  rfl

/-- Bytes that write no characters cannot be read, and it is told where they are wrong. -/
theorem readFrom_of_not_spells (hd : ds.device h.place = .file encoding bs)
    (hs : ∀ cs, ¬ Text.Spells encoding cs bs) :
    ∃ e, Text.decode encoding bs = .error e
      ∧ (readFrom h ds).1
        = .error (.unreadable { kind := .undecodable, args := [.words e.message] }) := by
  cases he : Text.decode encoding bs with
  | ok cs => exact absurd (Text.decode_eq_ok_iff.mp he) (hs cs)
  | error e =>
      refine ⟨e, rfl, ?_⟩
      rw [readFrom_file hd, Device.fileText, he]
      rfl

/-- A text that was read from bytes has the tokens of these bytes. -/
theorem tokens_unified {cs : List Char} (hs : Text.Spells encoding cs bs) :
    (text (String.ofList (Text.unifyLineEnds cs))).tokens = (bytes bs).tokens := by
  rw [tokens_eq, characters, String.toList_ofList, Text.filterMap_unifyLineEnds,
    ← Token.scan_of_spells hs]
  rfl

/-- **A program file is the same program read as text and read as bytes**, if its bytes are text in
    the encoding; if they are not, it cannot be read as text. -/
theorem text_reads_as_bytes {h h' : Handle} {ds ds' : Devices} {encoding : Text.Encoding}
    {bs : List UInt8} (hfile : ds.device h.place = .file encoding bs)
    (hbytes : ds'.device h'.place = .bytes { contents := bs.toArray }) :
    (∀ cs, Text.Spells encoding cs bs →
      (readFrom h ds).1 = .ok (.text (String.ofList (Text.unifyLineEnds cs)))
        ∧ tokensFrom h ds = .ok (Token.scan bs) ∧ tokensFrom h' ds' = .ok (Token.scan bs))
    ∧ ((∀ cs, ¬ Text.Spells encoding cs bs) → ∃ e cause, Text.decode encoding bs = .error e
      ∧ tokensFrom h ds = .error (.unreadable cause)
      ∧ Diagnostic.ofReadError (.unreadable cause) = .reading (ReadError.unreadableMessage e.message)
          .absent (some "UnicodeDecodeError")
      ∧ (Diagnostic.ofReadError (.unreadable cause)).name = "ReadError") := by
  constructor
  · intro cs hs
    have hread := readFrom_of_spells hfile hs
    refine ⟨hread, ?_, ?_⟩
    · rw [tokensFrom, hread, Except.map, tokens_unified hs]
      rfl
    · rw [tokensFrom, readFrom_bytes hbytes]
      rfl
  · intro hs
    obtain ⟨e, he, hread⟩ := readFrom_of_not_spells hfile hs
    refine ⟨e, { kind := .undecodable, args := [.words e.message] }, he, ?_, rfl, rfl⟩
    rw [tokensFrom, hread]
    rfl

/-- A character of two bytes and a line end are no instructions. A byte that begins no character
    makes a file unreadable. -/
theorem text_reads_as_two_bytes :
    let good := [0xc4, 0xab, 0x0d, 0x2b]
    let bad := [0x2b, 0xff]
    let ds : Devices := #[.file .utf8 good, .bytes { contents := good.toArray }]
    let ds' : Devices := #[.file .utf8 bad, .bytes { contents := bad.toArray }]
    (ds.device 0 = .file .utf8 good ∧ ds.device 1 = .bytes { contents := good.toArray })
      ∧ (ds'.device 0 = .file .utf8 bad ∧ ds'.device 1 = .bytes { contents := bad.toArray })
      ∧ tokensFrom (.direct 0) ds = .ok [.increment] ∧ tokensFrom (.direct 1) ds = .ok [.increment]
      ∧ ∃ cause, tokensFrom (.direct 0) ds' = .error (.unreadable cause) := by
  intro good bad ds ds'
  have hspelled : Text.Spells .utf8 ['ī', '\r', '+'] good := Text.decode_eq_ok_iff.mp rfl
  have hmisspelled (cs : List Char) : ¬ Text.Spells .utf8 cs bad :=
    fun hs => nomatch Text.decode_eq_ok_iff.mpr hs
  have hfile : ds.device (Handle.direct 0).place = .file .utf8 good := rfl
  have hbytes : ds.device (Handle.direct 1).place = .bytes { contents := good.toArray } := rfl
  have hfile' : ds'.device (Handle.direct 0).place = .file .utf8 bad := rfl
  have hbytes' : ds'.device (Handle.direct 1).place = .bytes { contents := bad.toArray } := rfl
  obtain ⟨-, htokens, htokens'⟩ := (text_reads_as_bytes hfile hbytes).1 _ hspelled
  obtain ⟨e, cause, -, herror, -⟩ := (text_reads_as_bytes hfile' hbytes').2 hmisspelled
  exact ⟨⟨hfile, hbytes⟩, ⟨hfile', hbytes'⟩, htokens, htokens', cause, herror⟩

end Source

end TapeMachine
