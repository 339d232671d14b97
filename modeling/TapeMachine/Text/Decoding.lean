import TapeMachine.Text.Columns

/-!
# Decoding

Bytes read as text. Three encodings are known, and each is strict: bytes that do not follow it are
an error that says where they stand. After decoding, every kind of line end becomes a line feed.

* **Latin-1** gives each byte the code point of the same number and never fails.
* **ASCII** refuses every byte above 127.
* **UTF-8** is read one sequence at a time. A sequence is refused where it stops being the beginning
  of one: overlong forms, surrogates and code points past the last one are refused at the second
  byte already.
-/

namespace TapeMachine.Text

/-- The encodings that a text file may be read in. -/
inductive Encoding where
  | utf8
  | ascii
  | latin1
  deriving DecidableEq

/-- The name of an encoding in messages. -/
def Encoding.name : Encoding → String
  | utf8   => "utf-8"
  | ascii  => "ascii"
  | latin1 => "latin-1"

/-- The encoding of a name. -/
def Encoding.ofName? (s : String) : Option Encoding :=
  [utf8, ascii, latin1].find? fun e => e.name = s

/-- Bytes that do not follow their encoding: the first of them, how many there are from `start` on,
    and what is wrong with them. -/
structure DecodeError where
  encoding : Encoding
  first    : UInt8
  start    : Nat
  length   : Nat
  reason   : String

/-- The wording of a decoding error. -/
def DecodeError.message (e : DecodeError) : String :=
  let head := "'" ++ e.encoding.name ++ "' codec can't decode byte"
  let tail := ": " ++ e.reason
  if e.length = 1 then
    head ++ " 0x" ++ String.ofList (lowerHex 2 e.first.toNat) ++ " in position "
      ++ toString e.start ++ tail
  else
    head ++ "s in position " ++ toString e.start ++ "-"
      ++ toString (e.start + e.length - 1) ++ tail

-- ── UTF-8 ────────────────────────────────────────────────────────────────────────

/-- How many bytes follow the lead byte of a sequence; none if no sequence starts with it. -/
def followers (lead : UInt8) : Option Nat :=
  if lead < 0x80 then some 0
  else if lead < 0xc2 then none
  else if lead < 0xe0 then some 1
  else if lead < 0xf0 then some 2
  else if lead < 0xf5 then some 3
  else none

/-- The bytes that may come second, by the lead byte. -/
def secondRange (lead : UInt8) : UInt8 × UInt8 :=
  if lead = 0xe0 then (0xa0, 0xbf)
  else if lead = 0xed then (0x80, 0x9f)
  else if lead = 0xf0 then (0x90, 0xbf)
  else if lead = 0xf4 then (0x80, 0x8f)
  else (0x80, 0xbf)

/-- The part of the code point that the lead byte of a longer sequence holds. -/
def leadBits (lead : UInt8) : Nat :=
  if lead < 0xe0 then lead.toNat % 32
  else if lead < 0xf0 then lead.toNat % 16
  else lead.toNat % 8

/-- A sequence that has begun: its lead byte, how many bytes were read and are still missing, the
    code point so far, and the bytes that may come next. -/
structure Partial where
  lead    : UInt8
  taken   : Nat
  missing : Nat
  value   : Nat
  range   : UInt8 × UInt8

/-- The sequence that a lead byte begins, with `missing` bytes to follow. -/
def Partial.start (lead : UInt8) (missing : Nat) : Partial :=
  ⟨lead, 1, missing, leadBits lead, secondRange lead⟩

/-- Whether a byte may come next. -/
def Partial.accepts (p : Partial) (b : UInt8) : Bool :=
  p.range.1 ≤ b && b ≤ p.range.2

/-- The sequence with six more bits. Only the second byte of a sequence has a range of its own. -/
def Partial.extend (p : Partial) (b : UInt8) : Partial :=
  ⟨p.lead, p.taken + 1, p.missing - 1, p.value * 64 + b.toNat % 64, (0x80, 0xbf)⟩

/-- Decode UTF-8: the next byte is at `position`, the characters read so far stand last one first,
    and a sequence may have begun. -/
def decodeUtf8From (position : Nat) (chars : List Char) :
    Option Partial → List UInt8 → Except DecodeError (List Char)
  | none, []     => .ok chars.reverse
  | some p, []   => .error ⟨.utf8, p.lead, position - p.taken, p.taken, "unexpected end of data"⟩
  | none, b :: bs =>
    match followers b with
    | none             => .error ⟨.utf8, b, position, 1, "invalid start byte"⟩
    | some 0           => decodeUtf8From (position + 1) (Char.ofNat b.toNat :: chars) none bs
    | some missing     => decodeUtf8From (position + 1) chars (some (.start b missing)) bs
  | some p, b :: bs =>
    if p.accepts b then
      if p.missing ≤ 1 then
        decodeUtf8From (position + 1) (Char.ofNat (p.extend b).value :: chars) none bs
      else decodeUtf8From (position + 1) chars (some (p.extend b)) bs
    else
      .error ⟨.utf8, p.lead, position - p.taken, p.taken, "invalid continuation byte"⟩

-- ── All encodings ────────────────────────────────────────────────────────────────

/-- Decode ASCII from position `start` on. -/
def decodeAsciiFrom (start : Nat) (chars : List Char) : List UInt8 → Except DecodeError (List Char)
  | []        => .ok chars.reverse
  | b :: rest =>
    if b < 0x80 then decodeAsciiFrom (start + 1) (Char.ofNat b.toNat :: chars) rest
    else .error ⟨.ascii, b, start, 1, "ordinal not in range(128)"⟩

/-- The characters that bytes stand for in an encoding. -/
def decode : Encoding → List UInt8 → Except DecodeError (List Char)
  | .utf8, bs   => decodeUtf8From 0 [] none bs
  | .ascii, bs  => decodeAsciiFrom 0 [] bs
  | .latin1, bs => .ok (bs.map fun b => Char.ofNat b.toNat)

/-- Every line end made a line feed: a carriage return alone, or with the line feed after it. -/
def unifyLineEnds : List Char → List Char
  | '\r' :: '\n' :: rest => '\n' :: unifyLineEnds rest
  | '\r' :: rest         => '\n' :: unifyLineEnds rest
  | c :: rest            => c :: unifyLineEnds rest
  | []                   => []

end TapeMachine.Text
