import TapeMachine.Proofs.Machine.History
import TapeMachine.Source.Run

/-!
# What a source says

A source is a row of characters, or of bytes, which are characters too. Eight characters are
instructions; the others are comments, and **a program means what is left without them**:

* `Source.tokens_eq` — the tokens of a source are those of its characters, one by one and in their
  order. The way by bytes, on which a character above 255 is replaced, leads to the same tokens.
* `Source.render_tokens` — written out again, they are the source without its comments.
* `Source.tokens_eq_iff` — so two sources have the same tokens exactly if they have the same
  instructions.
-/

namespace TapeMachine

-- ── Characters of tokens ─────────────────────────────────────────────────────────

namespace Token

/-- The eight characters that mean something. -/
def symbols : List Char :=
  all.map symbol

/-- The token whose character has a given code point. -/
def ofCodePoint? (n : Nat) : Option Token :=
  all.find? fun t => t.symbol.toNat = n

theorem symbol_mem_symbols (t : Token) : t.symbol ∈ symbols := by
  cases t <;> decide

/-- A character stands for an instruction exactly if it is its symbol. -/
theorem ofChar?_eq_some_iff {c : Char} {t : Token} : ofChar? c = some t ↔ t.symbol = c := by
  constructor
  · intro h
    rw [ofChar?.eq_def] at h
    split at h <;> cases h <;> rfl
  · rintro rfl
    exact ofChar?_symbol t

/-- A byte stands for an instruction exactly if it is that of its symbol. -/
theorem ofByte?_eq_some_iff {b : UInt8} {t : Token} : ofByte? b = some t ↔ t.byte = b := by
  constructor
  · intro h
    rw [ofByte?] at h
    repeat' split at h
    all_goals cases h <;> subst b <;> rfl
  · rintro rfl
    exact ofByte?_byte t

/-- A code point stands for an instruction exactly if it is that of its symbol. -/
theorem ofCodePoint?_eq_some_iff {n : Nat} {t : Token} :
    ofCodePoint? n = some t ↔ t.symbol.toNat = n := by
  constructor
  · intro h
    rw [ofCodePoint?] at h
    have hn := List.find?_some h
    exact of_decide_eq_true hn
  · rintro rfl
    cases t <;> rfl

/-- The eight characters are in the lower half of the bytes, and none of them is the first. -/
theorem symbol_bounds (t : Token) : 0 < t.symbol.toNat ∧ t.symbol.toNat < 128 := by
  cases t <;> decide

/-- Tokens written out are read again. -/
theorem filterMap_render (ts : List Token) : (render ts).filterMap ofChar? = ts := by
  induction ts with
  | nil => rfl
  | cons t ts ih => exact (List.filterMap_cons_some (ofChar?_symbol t)).trans (congrArg _ ih)

/-- Different tokens are written differently. -/
theorem render_inj {ts us : List Token} (h : render ts = render us) : ts = us := by
  rw [← filterMap_render ts, h, filterMap_render]

/-- Characters read as tokens and written out again lose those that are no instructions. -/
theorem render_filterMap (cs : List Char) :
    render (cs.filterMap ofChar?) = cs.filter (· ∈ symbols) := by
  induction cs with
  | nil => rfl
  | cons c cs ih =>
      cases ht : ofChar? c with
      | some t =>
          obtain rfl := ofChar?_eq_some_iff.mp ht
          have hc : decide (t.symbol ∈ symbols) = true := decide_eq_true (symbol_mem_symbols t)
          rw [List.filterMap_cons_some ht, List.filter_cons, if_pos hc, ← ih]
          rfl
      | none =>
          have hc : ¬ decide (c ∈ symbols) = true := by
            rw [decide_eq_true_eq]
            intro hc
            obtain ⟨t, -, rfl⟩ := List.mem_map.mp hc
            rw [ofChar?_symbol] at ht
            cases ht
          rw [List.filterMap_cons_none ht, List.filter_cons, if_neg hc, ih]

/-- A code point is a token exactly if the character made of it is one, which a half is not. -/
theorem ofChar?_ofCodePoint (n : Nat) : ofChar? (Text.ofCodePoint n) = ofCodePoint? n := by
  apply Option.ext
  intro t
  obtain ⟨hpos, hlt⟩ := t.symbol_bounds
  have hnat (m : Nat) (h : t.symbol = Char.ofNat m) : t.symbol.toNat = m := by
    by_cases hv : m.isValidChar
    · rw [h, Text.toNat_ofNat hv]
    · rw [h, Char.ofNat, dif_neg hv] at hpos
      cases hpos
  rw [ofChar?_eq_some_iff, ofCodePoint?_eq_some_iff, Text.ofCodePoint]
  split
  · next hhalf =>
      simp only [Text.isHalfPoint, Bool.and_eq_true, decide_eq_true_eq] at hhalf
      constructor
      · intro h
        have := hnat _ h
        rw [Text.halfOffset] at this
        omega
      · intro h
        omega
  · exact ⟨hnat n, fun h => by rw [← h, Char.ofNat_toNat]⟩

/-- No code point above those of bytes stands for an instruction. -/
theorem ofCodePoint?_eq_none {n : Nat} (h : 255 < n) : ofCodePoint? n = none := by
  apply Option.eq_none_iff_forall_ne_some.mpr
  intro t ht
  have hlt := t.symbol_bounds.2
  rw [ofCodePoint?_eq_some_iff.mp ht] at hlt
  omega

end Token

-- ── From characters to tokens ────────────────────────────────────────────────────

namespace Source

/-- The characters of a source; a byte is the character with its number. -/
def characters : Source → List Char
  | text s   => s.toList
  | bytes bs => bs.map fun b => Char.ofNat b.toNat

/-- A source without its comments. -/
def instructions (s : Source) : List Char :=
  s.characters.filter (· ∈ Token.symbols)

/-- The text with given code points, which may be halves. -/
def ofCodePoints (ns : List Nat) : Source :=
  text (String.ofList (ns.map Text.ofCodePoint))

theorem toNat_byteOf {c : Char} (h : c.toNat < 256) : (byteOf c).toNat = c.toNat := by
  rw [byteOf, if_pos h, Nat.toUInt8_eq, UInt8.toNat_ofNat_of_lt' h]

/-- The byte of a character is that of a token exactly if the character is that of the token. -/
theorem byte_eq_byteOf_iff {t : Token} {c : Char} : t.byte = byteOf c ↔ t.symbol = c := by
  have hs : t.symbol.toNat < 256 := Nat.lt_trans t.symbol_bounds.2 (by decide)
  have hbyte : t.byte = byteOf t.symbol := by rw [byteOf, if_pos hs, Token.byte]
  constructor
  · intro h
    by_cases hc : c.toNat < 256
    · have hn := congrArg UInt8.toNat (hbyte.symm.trans h)
      rw [toNat_byteOf hs, toNat_byteOf hc] at hn
      exact Char.toNat_inj.mp hn
    · rw [byteOf, if_neg hc] at h
      cases t <;> cases h
  · rintro rfl
    exact hbyte

/-- A character becomes a byte that is the same token, or none if the character is none. -/
theorem ofByte?_byteOf (c : Char) : Token.ofByte? (byteOf c) = Token.ofChar? c := by
  apply Option.ext
  intro t
  rw [Token.ofByte?_eq_some_iff, Token.ofChar?_eq_some_iff]
  exact byte_eq_byteOf_iff

theorem byteOf_ofNat (b : UInt8) : byteOf (Char.ofNat b.toNat) = b := by
  have hb := b.toNat_lt
  have hc : (Char.ofNat b.toNat).toNat = b.toNat := Text.toNat_ofNat (Or.inl (by omega))
  apply UInt8.toNat_inj.mp
  rw [toNat_byteOf (by omega), hc]

/-- The bytes of a source of either kind are those of its characters. -/
theorem toBytes_eq (s : Source) : s.toBytes = s.characters.map byteOf := by
  cases s with
  | text s => rfl
  | bytes bs =>
      have hid : (byteOf ∘ fun b : UInt8 => Char.ofNat b.toNat) = id := funext byteOf_ofNat
      rw [characters, List.map_map, hid, List.map_id]
      rfl

/-- **The tokens of a source are those of its characters**, in their order. -/
theorem tokens_eq (s : Source) : s.tokens = s.characters.filterMap Token.ofChar? := by
  have hof : Token.ofByte? ∘ byteOf = Token.ofChar? := funext ofByte?_byteOf
  rw [tokens, Token.scan, toBytes_eq, List.filterMap_map, hof]

/-- **The tokens of a source, written out, are the source without its comments.** -/
theorem render_tokens (s : Source) : Token.render s.tokens = s.instructions := by
  rw [tokens_eq, Token.render_filterMap, instructions]

/-- Sources have the same tokens exactly if they have the same instructions. -/
theorem tokens_eq_iff {s s' : Source} :
    s.tokens = s'.tokens ↔ s.instructions = s'.instructions := by
  rw [← render_tokens, ← render_tokens]
  exact ⟨congrArg _, Token.render_inj⟩

theorem tokens_ofCodePoints (ns : List Nat) :
    (ofCodePoints ns).tokens = ns.filterMap Token.ofCodePoint? := by
  have hof : Token.ofChar? ∘ Text.ofCodePoint = Token.ofCodePoint? :=
    funext Token.ofChar?_ofCodePoint
  rw [tokens_eq, ofCodePoints, characters, String.toList_ofList, List.filterMap_map, hof]

/-- The tokens of two texts, one behind the other, are those of the one and then those of the
    other. -/
theorem tokens_text_append (a b : String) :
    (text (a ++ b)).tokens = (text a).tokens ++ (text b).tokens := by
  rw [tokens_eq, tokens_eq, tokens_eq, characters, String.toList_append, List.filterMap_append]
  rfl

/-- The same for bytes. -/
theorem tokens_bytes_append (a b : List UInt8) :
    (bytes (a ++ b)).tokens = (bytes a).tokens ++ (bytes b).tokens :=
  List.filterMap_append

-- ── From tokens to runs ──────────────────────────────────────────────────────────

/-- Two sources are the same program: they have the same tokens, and whatever engine and host they
    are run on, for as many steps as they may, they come to the same run and leave the same host.
    Machines that hold them run alike on any streams. -/
structure SameProgram (s s' : Source) : Prop where
  tokens_eq : s.tokens = s'.tokens
  run_eq    : ∀ limit c h, (s.run limit c h).result = (s'.run limit c h).result
    ∧ (s.run limit c h).host = (s'.run limit c h).host
  runsAs    : ∀ vm : Machine, Machine.RunsAs (vm.load (.ofOperations s.operations))
    (vm.load (.ofOperations s'.operations))

/-- Sources with the same tokens are the same program, whatever is done with them. -/
theorem sameProgram_of_tokens_eq {s s' : Source} (h : s.tokens = s'.tokens) : SameProgram s s' := by
  have hops : s.operations = s'.operations := congrArg Operation.ofTokens h
  refine ⟨h, ?_, ?_⟩
  · intro limit c host
    rw [run, run, hops]
    cases Engine.make c host with
    | error e => exact ⟨rfl, rfl⟩
    | ok made => exact ⟨rfl, rfl⟩
  · intro vm σ ch limit streams
    rw [hops]

/-- **Nothing but its instructions matters about a source**: not its comments, and not whether it is
    a text or bytes. -/
theorem only_instructions_matter :
    (∀ s : Source, s.tokens = s.characters.filterMap Token.ofChar?
      ∧ Token.render s.tokens = s.instructions)
    ∧ (∀ ns : List Nat, (ofCodePoints ns).tokens = ns.filterMap Token.ofCodePoint?)
    ∧ (∀ n, 255 < n → Token.ofCodePoint? n = none)
    ∧ (∀ a b : String, (text (a ++ b)).tokens = (text a).tokens ++ (text b).tokens)
    ∧ (∀ a b : List UInt8, (bytes (a ++ b)).tokens = (bytes a).tokens ++ (bytes b).tokens)
    ∧ ∀ s s' : Source, s.instructions = s'.instructions → SameProgram s s' := by
  refine ⟨fun s => ⟨tokens_eq s, render_tokens s⟩, tokens_ofCodePoints,
    fun n => Token.ofCodePoint?_eq_none, tokens_text_append, tokens_bytes_append, ?_⟩
  intro s s' h
  exact sameProgram_of_tokens_eq (tokens_eq_iff.mpr h)

/-- The code point 0x12B, whose low byte is that of an instruction, and a half of a pair are
    comments beside a byte that is one. -/
theorem comments_beside_instruction :
    let s := ofCodePoints [0x12b, 0x2b, 0xd82b]
    let s' := bytes [0x2b, 0xff]
    (255 < 0x12b ∧ s.instructions = s'.instructions)
      ∧ Token.ofCodePoint? 0x12b = none ∧ SameProgram s s' := by
  have h : (ofCodePoints [0x12b, 0x2b, 0xd82b]).instructions = (bytes [0x2b, 0xff]).instructions := by
    rw [← tokens_eq_iff, tokens_ofCodePoints]
    rfl
  exact ⟨⟨by decide, h⟩, only_instructions_matter.2.2.1 _ (by decide),
    only_instructions_matter.2.2.2.2.2 _ _ h⟩

end Source

end TapeMachine
