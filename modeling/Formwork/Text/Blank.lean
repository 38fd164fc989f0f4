/-!
# White space

A character is blank iff it has the Unicode property `White_Space`; trimming takes blank
characters off both ends.
-/

namespace Formwork.Text

/-- White space of any script. -/
def isSpace (c : Char) : Bool :=
  let n := c.toNat
  (9 ≤ n && n ≤ 13) || n == 0x20 || n == 0x85 || n == 0xa0 || n == 0x1680 ||
    (0x2000 ≤ n && n ≤ 0x200a) || n == 0x2028 || n == 0x2029 || n == 0x202f || n == 0x205f ||
    n == 0x3000

/-- Takes white space off the left end. -/
def trimLeft (l : List Char) : List Char := l.dropWhile isSpace

/-- Takes white space off the right end. -/
def trimRight (l : List Char) : List Char := (l.reverse.dropWhile isSpace).reverse

/-- Takes white space off both ends. -/
def trimChars (l : List Char) : List Char := trimRight (trimLeft l)

/-- Takes white space off both ends of a text. -/
def trim (s : String) : String := String.ofList (trimChars s.toList)

/-- Whether a text holds nothing but white space. -/
def isBlank (s : String) : Bool := s.toList.all isSpace

end Formwork.Text
