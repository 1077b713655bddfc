/-!
The characters of a YAML text with their places, and the gaps between what they write. A line ends
in a line feed, whatever else it ends in; two further characters end lines and are kept as they are.
-/
namespace FleetRegistry.Yaml

/-- A character with its place: in the text, and by line and column. -/
structure Glyph where
  char : Char
  index : Nat
  line : Nat
  column : Nat
  deriving DecidableEq, Inhabited

/-- What is still to be read of a text. -/
abbrev Glyphs := List Glyph

def isBreak (c : Char) : Bool :=
  c = '\n' || c = '\r' || c.toNat = 0x85 || c.toNat = 0x2028 || c.toNat = 0x2029

def isBlank (c : Char) : Bool := c = ' ' || c = '\t'

def isAllowed (c : Char) : Bool :=
  let code := c.toNat
  code = 0x09 || code = 0x0a || code = 0x0d || (0x20 ≤ code && code ≤ 0x7e) || code = 0x85
    || (0xa0 ≤ code && code ≤ 0xfffd) || 0x10000 ≤ code

/-- The text with one kind of ordinary line end. -/
def unifyBreaks : List Char → List Char
  | [] => []
  | '\r' :: '\n' :: rest => '\n' :: unifyBreaks rest
  | c :: rest => (if c = '\r' || c.toNat = 0x85 then '\n' else c) :: unifyBreaks rest

/-- Places for characters, from some place on. -/
def place (index line column : Nat) : List Char → Glyphs
  | [] => []
  | c :: rest =>
    ⟨c, index, line, column⟩ ::
      if isBreak c then place (index + 1) (line + 1) 0 rest
      else place (index + 1) line (column + 1) rest

/-- The characters of a text, unless one of them may not stand there. A mark of the byte order in
front is no part of the text. -/
def glyphs? (text : String) : Option Glyphs :=
  let cs := match text.toList with
    | '\uFEFF' :: rest => rest
    | cs => cs
  if cs.all isAllowed then some (place 0 0 0 (unifyBreaks cs)) else none

namespace Glyphs

def next? (s : Glyphs) : Option Char := s.head?.map (·.char)

def index (s : Glyphs) : Nat := (s.head?.map (·.index)).getD 0

def line? (s : Glyphs) : Option Nat := s.head?.map (·.line)

/-- The column of the next character; at the end of the text, the first. -/
def column (s : Glyphs) : Nat := (s.head?.map (·.column)).getD 0

/-- Whether the next character ends a line or a word, or there is none. -/
def endsWord (s : Glyphs) : Bool := s.next?.all fun c => isBlank c || isBreak c

def endsLine (s : Glyphs) : Bool := s.next?.all isBreak

def skip (n : Nat) (s : Glyphs) : Glyphs := s.drop n

/-- Whether a mark stands next, and ends a word. -/
def atMark (c : Char) (s : Glyphs) : Bool := s.next? = some c && (s.skip 1).endsWord

/-- Whether a line of three such characters begins or ends a document. -/
def atMarker (c : Char) (s : Glyphs) : Bool :=
  s.head?.any (·.column = 0) && (s.take 3).map (·.char) = [c, c, c] && (s.skip 3).endsWord

/-- Whether a document begins or ends. -/
def atDocumentMarker (s : Glyphs) : Bool := s.atMarker '-' || s.atMarker '.'

def lineRest (s : Glyphs) : List Char := (s.takeWhile (!isBreak ·.char)).map (·.char)

/-- The text from the end of the line on. -/
def skipLine (s : Glyphs) : Glyphs := s.dropWhile (!isBreak ·.char)

/-- The text after blanks within the line. -/
def skipBlanks (s : Glyphs) : Glyphs := s.dropWhile fun g => isBlank g.char

/-- Skips blanks, line ends and comments. Where tabs do not separate, a tab is left in place; after
a line end they separate only if they always do. -/
def skipFrom (inComment tabs always : Bool) : Glyphs → Glyphs
  | [] => []
  | g :: rest =>
    if isBreak g.char then skipFrom false always always rest
    else if inComment then skipFrom true tabs always rest
    else if g.char = '#' then skipFrom true tabs always rest
    else if g.char = ' ' || (g.char = '\t' && tabs) then skipFrom false tabs always rest
    else g :: rest

/-- The text after a gap between brackets, where tabs always separate. -/
def skipInFlow (s : Glyphs) : Glyphs := skipFrom false true true s

/-- The text after a gap in a block, behind something else in the line. -/
def skipInBlock (s : Glyphs) : Glyphs := skipFrom false true false s

/-- The text after a gap in a block, where an indented block may begin. -/
def skipIndent (s : Glyphs) : Glyphs := skipFrom false false false s

end Glyphs

end FleetRegistry.Yaml
