/-!
# Blank text

Names and codes are compared after trimming white space at both ends. White space here is
the Unicode `White_Space` property: the ASCII controls tab to carriage return, the space,
next-line, no-break space, ogham space, the spaces from en quad to hair space, the line and
paragraph separators, the narrow no-break space, the medium mathematical space and the
ideographic space. A text is blank when nothing is left after trimming.
-/

namespace Encumbrance

namespace Text

/-- The Unicode `White_Space` property. -/
def isWhite (c : Char) : Bool :=
  let n := c.toNat
  (0x09 ≤ n && n ≤ 0x0D) || n == 0x20 || n == 0x85 || n == 0xA0 || n == 0x1680 ||
    (0x2000 ≤ n && n ≤ 0x200A) || n == 0x2028 || n == 0x2029 || n == 0x202F ||
    n == 0x205F || n == 0x3000

/-- Drops white space at the front. -/
def trimStart (s : String) : String :=
  String.ofList (s.toList.dropWhile isWhite)

/-- Drops white space at both ends. -/
def trim (s : String) : String :=
  String.ofList ((s.toList.dropWhile isWhite).reverse.dropWhile isWhite).reverse

/-- Nothing but white space, or empty. -/
def isBlank (s : String) : Bool := s.toList.all isWhite

/-- The trimmed text when it is not blank. -/
def nonBlank? (s : String) : Option String :=
  let t := trim s
  if t.isEmpty then none else some t

end Text

end Encumbrance
