import TapeMachine.Text.Half

/-!
# File names

A file name is a row of bytes. A text gives one: its UTF-8, where a byte that is no part of any
UTF-8 is given by a half of a pair, U+DC80 to U+DCFF. No other half is part of a name.

* `FileName.ofText` is the name that a text gives.
* `FileName.unfit?` tells the first characters of a text that cannot be part of a name.
-/

namespace TapeMachine.CommandLine

/-- The name of a file or a directory. -/
abbrev FileName := List UInt8

namespace FileName

/-- The name that stays in place. -/
def here : FileName := [46]

/-- The name that goes up. -/
def above : FileName := [46, 46]

/-- Whether a character is a half that gives a byte. -/
def isByte (c : Char) : Bool :=
  Text.isHalf c && 0xdc80 ≤ Text.codePoint c && Text.codePoint c ≤ 0xdcff

/-- The bytes that a character gives. -/
def bytesOf (c : Char) : List UInt8 :=
  if isByte c then [UInt8.ofNat (Text.codePoint c)] else c.toString.toUTF8.toList

/-- The name that a text gives. -/
def ofText (s : String) : FileName :=
  s.toList.flatMap bytesOf

/-- The names in a path, which slashes part. -/
def ofPath (path : String) : List FileName :=
  (path.splitOn "/").map ofText

/-- The place of the first character of a text that cannot be part of a name, and the place after
    the row of halves that it begins. -/
def unfit? (s : String) : Option (Nat × Nat) :=
  let start := (s.toList.takeWhile fun c => !Text.isHalf c || isByte c).length
  match (s.toList.drop start).takeWhile Text.isHalf with
  | []     => none
  | halves => some (start, start + halves.length)

end FileName

end TapeMachine.CommandLine
