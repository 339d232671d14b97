import TapeMachine.Element

/-!
# Program sources

A program source is a text or a sequence of bytes. A text becomes bytes one character at a time:
a code point below 256 is that byte, and any other character becomes a question mark, which is no
instruction. So a character is never taken for the instruction that its low byte would be.
-/

namespace TapeMachine

/-- The text of a program, as characters or as bytes. -/
inductive Source where
  | text (s : String)
  | bytes (bs : List UInt8)

/-- The byte that stands for a character. -/
def Source.byteOf (c : Char) : UInt8 :=
  if c.toNat < 256 then c.toNat.toUInt8 else 63

/-- The bytes of a source, as many as it has characters or bytes. -/
def Source.toBytes : Source → List UInt8
  | text s   => s.toList.map byteOf
  | bytes bs => bs

/-- The tokens of a sequence of bytes, in order; every other byte is a comment. -/
def Token.scan (bs : List UInt8) : List Token :=
  bs.filterMap ofByte?

/-- The tokens of a source, in order. -/
def Source.tokens (s : Source) : List Token :=
  Token.scan s.toBytes

/-- The operations of a source, in order. -/
def Source.operations (s : Source) : List Operation :=
  Operation.ofTokens s.tokens

end TapeMachine
