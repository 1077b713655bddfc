import FleetRegistry.Json.Printer
import FleetRegistry.Yaml.Glyph
import FleetRegistry.Yaml.Plain

/-!
Writing YAML in block form: two blanks for each level, the items of a list under their key without
a further level. A text is written plain if that reads back as the same text, in single quotes if
not, over lines if it has lines, and in double quotes if nothing else can hold it.
-/
namespace FleetRegistry.Yaml

def endsWord : List Char → Bool
  | [] => true
  | c :: _ => isBlank c || isBreak c || c.toNat = 0

/-- A character that may stand in a text outside double quotes. -/
def isPrintable (c : Char) : Bool :=
  let code := c.toNat
  code == 0x0a || (0x20 ≤ code && code ≤ 0x7e)
    || (0xa0 ≤ code && code < 0xfffe && code ≠ 0xfeff)

def startMarks : List Char :=
  [',', '[', ']', '\x7b', '\x7d', '#', '&', '*', '!', '|', '>', '\'', '"', '%', '@', '\x60']

/-- Whether a text begins like something other than a plain word. -/
def startsMarked : List Char → Bool
  | '-' :: '-' :: '-' :: _ => true
  | '.' :: '.' :: '.' :: _ => true
  | c :: rest => c ∈ startMarks || ((c = '-' || c = '?' || c = ':') && endsWord rest)
  | [] => false

/-- Whether a colon within a text would end a key, or a number sign begin a comment. The first
character of the list has been looked at. -/
def hasMarkWithin : List Char → Bool
  | c :: d :: rest =>
    (d = ':' && endsWord rest) || (d = '#' && endsWord [c]) || hasMarkWithin (d :: rest)
  | _ => false

def hasBlankBeforeBreak : List Char → Bool
  | c :: d :: rest => (c = ' ' && isBreak d) || hasBlankBeforeBreak (d :: rest)
  | _ => false

def hasBlankAfterBreak : List Char → Bool
  | c :: d :: rest => (isBreak c && d = ' ') || hasBlankAfterBreak (d :: rest)
  | _ => false

/-- A text that no form but double quotes can hold. -/
def needsEscapes (s : List Char) : Bool := !s.all isPrintable || hasBlankBeforeBreak s

/-- A text that can be written plain, as far as its characters go. -/
def allowsPlain (s : List Char) : Bool :=
  !(needsEscapes s || s.any isBreak || startsMarked s || hasMarkWithin s
    || s.head? = some ' ' || s.getLast? = some ' ')

/-- Whether a plain word would be taken for something else than the text it is. -/
def isAmbiguous (word : String) : Bool :=
  isZeroPadded word.toList ||
    match plainValue word with
    | .text => false
    | _ => true

def capitalHex (width n : Nat) : List Char :=
  let digits := (Nat.toDigits 16 n).map Char.toUpper
  List.replicate (width - digits.length) '0' ++ digits

def shortEscapes : List (Nat × Char) :=
  [(0, '0'), (7, 'a'), (8, 'b'), (9, 't'), (10, 'n'), (11, 'v'), (12, 'f'), (13, 'r'), (27, 'e'),
    (0x22, '"'), (0x5c, '\\'), (0x85, 'N'), (0xa0, '_'), (0x2028, 'L'), (0x2029, 'P')]

def escape (c : Char) : List Char :=
  let code := c.toNat
  if isPrintable c && !isBreak c && c ≠ '"' && c ≠ '\\' then [c]
  else match shortEscapes.lookup code with
    | some letter => ['\\', letter]
    | none =>
      if code ≤ 0xff then '\\' :: 'x' :: capitalHex 2 code
      else if code ≤ 0xffff then '\\' :: 'u' :: capitalHex 4 code
      else '\\' :: 'U' :: capitalHex 8 code

def margin (indent : Nat) : List Char := List.replicate indent ' '

/-- The lines of a text under a margin. Empty lines have none. -/
def withMargin (indent : Nat) : Bool → List Char → List Char
  | _, [] => []
  | atStart, c :: rest =>
    if isBreak c then c :: withMargin indent true rest
    else (if atStart then margin indent else []) ++ c :: withMargin indent false rest

/-- A text between single quotes, in which a quote is written twice. -/
def singleQuoted (indent : Nat) (s : List Char) : List Char :=
  '\'' :: withMargin indent false (s.flatMap fun c => if c = '\'' then ['\'', '\''] else [c])
    ++ ['\'']

/-- What follows the mark of a text over lines: the margin where the text itself begins with a
blank or an empty line, and how many line ends there are behind it. -/
def blockHints (s : List Char) : List Char :=
  (if s.head?.any fun c => c = ' ' || isBreak c then ['2'] else []) ++
  match s.reverse with
  | [] => ['-']
  | c :: rest =>
    if !isBreak c then ['-']
    else if rest.head?.all isBreak then ['+'] else []

/-- A text over lines, up to its last line end. -/
def literal (indent : Nat) (s : List Char) : List Char :=
  let lines := if s.getLast?.any isBreak then s.dropLast else s
  '|' :: blockHints s ++ '\n' :: withMargin indent true lines

def scalar (indent : Nat) (text : String) : String :=
  let s := text.toList
  String.ofList <|
    if '\n' ∈ s && !needsEscapes s && s.getLast? ≠ some ' ' then literal indent s
    else if needsEscapes s || '\n' ∈ s then '"' :: s.flatMap escape ++ ['"']
    else if isAmbiguous text || !allowsPlain s then
      if hasBlankAfterBreak s then '"' :: s.flatMap escape ++ ['"'] else singleQuoted indent s
    else s

/-- Whether a text can be a key in front of its colon. -/
def isSimpleKey (text : String) : Bool := text.utf8ByteSize ≤ 128 && !text.toList.any isBreak

/-- A key with its colon. A key that is too long, or has lines, stands behind a mark of its own. -/
def key (indent : Nat) (text : String) : String :=
  if isSimpleKey text then scalar (indent + 2) text ++ ":"
  else "? " ++ scalar (indent + 2) text ++ "\n" ++ String.ofList (margin indent) ++ ":"

def inlineText (indent : Nat) : Json → String
  | .str text => scalar indent text
  | value => value.scalarText

mutual

/-- The value of a key in a block with a margin, from behind the colon to the end of the line. -/
def memberValue (indent : Nat) : Json → String
  | .arr (item :: rest) => "\n" ++ items true indent (item :: rest)
  | .obj (member :: rest) => "\n" ++ members true (indent + 2) (member :: rest)
  | value => " " ++ inlineText (indent + 2) value ++ "\n"

/-- An item of a list with a margin, from behind the mark to the end of the line. -/
def itemValue (indent : Nat) : Json → String
  | .arr (item :: rest) => " " ++ items false (indent + 2) (item :: rest)
  | .obj (member :: rest) => " " ++ members false (indent + 2) (member :: rest)
  | value => " " ++ inlineText (indent + 2) value ++ "\n"

/-- Items at a margin, where the first may stand behind something else in its line. -/
def items (atMargin : Bool) (indent : Nat) : List Json → String
  | [] => ""
  | item :: rest =>
    (if atMargin then String.ofList (margin indent) else "") ++ "-" ++ itemValue indent item
      ++ items true indent rest

/-- Members at a margin, where the first may stand behind something else in its line. -/
def members (atMargin : Bool) (indent : Nat) : List (String × Json) → String
  | [] => ""
  | (name, value) :: rest =>
    (if atMargin then String.ofList (margin indent) else "") ++ key indent name
      ++ memberValue indent value ++ members true indent rest

end

def document : Json → String
  | .arr (item :: rest) => items true 0 (item :: rest)
  | .obj (member :: rest) => members true 0 (member :: rest)
  | value => inlineText 2 value ++ "\n"

end FleetRegistry.Yaml
