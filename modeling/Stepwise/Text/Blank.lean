import Stepwise.Text.Ranges

/-!
# Blank characters

The characters with the Unicode property `White_Space`, and the texts that have no others.
-/

namespace Stepwise.Text

/-- The code points with the property `White_Space`. -/
def blankRanges : Ranges :=
  [(0x09, 0x0D), (0x20, 0x20), (0x85, 0x85), (0xA0, 0xA0), (0x1680, 0x1680), (0x2000, 0x200A),
    (0x2028, 0x2029), (0x202F, 0x202F), (0x205F, 0x205F), (0x3000, 0x3000)]

def isBlank (c : Char) : Bool :=
  blankRanges.contains c

/-- Whether nothing but white space is in the text. -/
def isBlankText (s : String) : Bool :=
  s.toList.all isBlank

end Stepwise.Text
