import WireProtocol.Text.Intervals

/-!
# Blank characters

* `Text.isBlank`: characters with the property White_Space.
* `Text.trim`: a text without the blanks at its ends.
-/

namespace WireProtocol

namespace Text

/-- The code points that are blank. -/
def blank : Intervals :=
  #[0x9, 0xe, 0x20, 0x21, 0x85, 0x86, 0xa0, 0xa1, 0x1680, 0x1681, 0x2000, 0x200b, 0x2028, 0x202a,
    0x202f, 0x2030, 0x205f, 0x2060, 0x3000, 0x3001]

/-- Whether a character is blank. -/
def isBlank (c : Char) : Bool :=
  blank.contains c.toNat

/-- Characters without the blanks in front. -/
def trimLeft (text : List Char) : List Char :=
  text.dropWhile isBlank

/-- A text without the blanks at its ends. -/
def trim (text : String) : String :=
  String.ofList (trimLeft (trimLeft text.toList).reverse).reverse

end Text

end WireProtocol
