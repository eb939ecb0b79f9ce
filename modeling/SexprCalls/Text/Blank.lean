import SexprCalls.Text.Utf8

/-!
# White space

The characters with the Unicode white-space property, and the removal of such
characters from both ends of a text.
-/

namespace SexprCalls.Text

open Utf8

/-- The characters with the Unicode white-space property. -/
def isBlank (char : Char) : Bool :=
  let code := char.toNat
  (0x09 ≤ code && code ≤ 0x0D) || code == 0x20 || code == 0x85 ||
    code == 0xA0 || code == 0x1680 || (0x2000 ≤ code && code ≤ 0x200A) ||
    code == 0x2028 || code == 0x2029 || code == 0x202F || code == 0x205F ||
    code == 0x3000

/-- A segment that is a white-space character. -/
def Utf8.Segment.isBlank : Segment → Bool
  | .char value => Text.isBlank value
  | .stray _ => false

/-- A text without the white space at its two ends. -/
def trim (bytes : Bytes) : Bytes :=
  let fromFirst := (segments bytes).dropWhile Segment.isBlank
  let toLast := (fromFirst.reverse.dropWhile Segment.isBlank).reverse
  toLast.flatMap Segment.bytes

end SexprCalls.Text
