import MiniApp.Text.CharSet

/-!
# White space

White space in the sense of Unicode text: the separators, the bidirectional blanks and the ASCII
controls from tab to carriage return and from file to unit separator. The zero width space and the
byte order mark are not white space.
-/

namespace MiniApp.Text

/-- The white space characters. -/
def blanks : CharSet where
  ranges := [
    (0x9, 0xD), (0x1C, 0x20), (0x85, 0x85), (0xA0, 0xA0), (0x1680, 0x1680), (0x2000, 0x200A),
    (0x2028, 0x2029), (0x202F, 0x202F), (0x205F, 0x205F), (0x3000, 0x3000)]

/-- White space test for one character. -/
def isBlank (c : Char) : Bool := blanks.contains c

/-- Drop white space at both ends. -/
def trimBlanks (cs : List Char) : List Char :=
  ((cs.dropWhile isBlank).reverse.dropWhile isBlank).reverse

/-- What remains after the longest suffix of white space is cut off. -/
def trimBlanksEnd (cs : List Char) : List Char :=
  (cs.reverse.dropWhile isBlank).reverse

end MiniApp.Text
