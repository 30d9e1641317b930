import Formulary.Text.Ranges

/-!
# White space

The characters that separate the words of a formula and that are dropped at both ends of a text:
the separators of the Unicode standard, the line ends, the tab and the four information separators.
A zero-width space and a byte order mark are not white space.
-/

namespace Formulary.Text

def spaceRanges : Ranges :=
  [(0x0009, 0x000D), (0x001C, 0x0020), (0x0085, 0x0085), (0x00A0, 0x00A0), (0x1680, 0x1680),
   (0x2000, 0x200A), (0x2028, 0x2029), (0x202F, 0x202F), (0x205F, 0x205F), (0x3000, 0x3000)]

def isSpace (c : Char) : Bool :=
  spaceRanges.contains c

def stripFront (cs : List Char) : List Char :=
  cs.dropWhile isSpace

/-- The text without the white space at both ends. -/
def strip (cs : List Char) : List Char :=
  (stripFront (stripFront cs).reverse).reverse

def stripped (s : String) : String :=
  String.ofList (strip s.toList)

/-- Is there nothing but white space? -/
def isBlank (cs : List Char) : Bool :=
  cs.all isSpace

theorem length_stripFront_le (cs : List Char) : (stripFront cs).length ≤ cs.length :=
  (List.dropWhile_sublist isSpace).length_le

theorem length_strip_le (cs : List Char) : (strip cs).length ≤ cs.length := by
  have h₁ := length_stripFront_le (stripFront cs).reverse
  have h₂ := length_stripFront_le cs
  simp only [strip, List.length_reverse] at h₁ ⊢
  omega

end Formulary.Text
