/-!
Blanks: the characters that separate words, in every script. Trimming removes them from both ends
and leaves the text between untouched.
-/
namespace FleetRegistry.Text

/-- The white space of the Unicode standard. -/
def isBlank (c : Char) : Bool :=
  let code := c.toNat
  (0x09 ≤ code && code ≤ 0x0d) || code == 0x20 || code == 0x85 || code == 0xa0 || code == 0x1680
    || (0x2000 ≤ code && code ≤ 0x200a) || code == 0x2028 || code == 0x2029 || code == 0x202f
    || code == 0x205f || code == 0x3000

def trimStart (s : List Char) : List Char := s.dropWhile isBlank

def trimEnd (s : List Char) : List Char := (s.reverse.dropWhile isBlank).reverse

def trim (s : List Char) : List Char := trimEnd (trimStart s)

def isBlankText (s : String) : Bool := s.toList.all isBlank

end FleetRegistry.Text
