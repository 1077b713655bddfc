import FleetRegistry.Json.Parser
import FleetRegistry.Text.Digits
import FleetRegistry.Yaml.Glyph

/-!
Reading the scalars of a YAML text: plain words, quoted texts, and texts over lines under a margin.
Within words and quotes one line end stands for a blank, and of several the first for nothing.
-/
namespace FleetRegistry.Yaml

/-- White space within a scalar, of which something is kept only if more text follows. -/
inductive Held where
  /-- Blanks within a line, the last first. -/
  | blanks (chars : List Char)
  /-- Line ends, with the first of them apart. An escaped line end is not there. -/
  | breaks (first : Option Char) (more : List Char)

namespace Held

def nothing : Held := blanks []

def isNothing : Held → Bool
  | blanks [] => true
  | _ => false

def hasBreak : Held → Bool
  | blanks _ => false
  | breaks _ _ => true

/-- White space with one more character. Blanks around line ends are not held. -/
def add (c : Char) : Held → Held
  | blanks chars => if isBreak c then breaks (some c) [] else blanks (c :: chars)
  | breaks first more => if isBreak c then breaks first (more ++ [c]) else breaks first more

def folded : Held → List Char
  | blanks chars => chars.reverse
  | breaks (some '\n') [] => [' ']
  | breaks (some '\n') more => more
  | breaks first more => first.toList ++ more

end Held

abbrev ScalarReading := Option (String × Glyphs)

def flowMarks : List Char := [',', '[', ']', '\x7b', '\x7d']

/-- Whether a character that is neither blank nor line end ends a plain word. -/
def endsPlain (inFlow : Bool) (floor : Nat) (held : Held) (s : Glyphs) : Bool :=
  (!held.isNothing && s.next? = some '#')
    || (held.hasBreak && (s.atDocumentMarker || (!inFlow && s.column < floor)))
    || s.atMark ':' || (inFlow && s.next?.any (· ∈ flowMarks))

/-- Whether a colon stands where neither a word nor a key can have it. -/
def isStrayColon (inFlow : Bool) (s : Glyphs) : Bool :=
  inFlow && s.next? = some ':' && (s.skip 1).next?.any fun c => c = '?' || c ∈ flowMarks

/-- Reads on in a plain word. The characters so far are held in reverse; `last` is what follows the
last of them. Lines after the first begin at the floor or to the right of it. -/
def plainFrom (inFlow : Bool) (floor : Nat) (done : List Char) (held : Held) (last : Glyphs) :
    Glyphs → ScalarReading
  | [] => some (String.ofList done.reverse, last)
  | g :: rest =>
    if isBreak g.char then plainFrom inFlow floor done (held.add g.char) last rest
    else if isBlank g.char then
      if held.hasBreak && g.char = '\t' && g.column < floor then none
      else plainFrom inFlow floor done (held.add g.char) last rest
    else if endsPlain inFlow floor held (g :: rest) then
      if isStrayColon inFlow (g :: rest) then none else some (String.ofList done.reverse, last)
    else if isStrayColon inFlow (g :: rest) then none
    else plainFrom inFlow floor (g.char :: held.folded.reverse ++ done) .nothing rest rest

def readPlain (inFlow : Bool) (floor : Nat) (s : Glyphs) : ScalarReading :=
  plainFrom inFlow floor [] .nothing s s

def leadMarks : List Char :=
  ['-', '?', ':', ',', '[', ']', '\x7b', '\x7d', '#', '&', '*', '!', '|', '>', '\'', '"', '%', '@',
    '\x60']

def startsPlain (inFlow : Bool) (s : Glyphs) : Bool :=
  match s with
  | [] => false
  | g :: (rest : Glyphs) =>
    if g.char = '-' then !rest.endsWord
    else if g.char = '?' || g.char = ':' then !inFlow && !rest.endsWord
    else !(isBlank g.char || isBreak g.char || g.char ∈ leadMarks)

/-! ## Quotes -/

def letterEscapes : List (Char × Nat) :=
  [('0', 0), ('a', 7), ('b', 8), ('t', 9), ('\t', 9), ('n', 10), ('v', 11), ('f', 12), ('r', 13),
    ('e', 27), (' ', 0x20), ('"', 0x22), ('/', 0x2f), ('\\', 0x5c), ('N', 0x85), ('_', 0xa0),
    ('L', 0x2028), ('P', 0x2029)]

/-- Escapes by number, with how many digits the number has. -/
def numberEscapes : List (Char × Nat) := [('x', 2), ('u', 4), ('U', 8)]

def charOf? (code : Nat) : Option Char :=
  if code.isValidChar then some (Char.ofNat code) else none

def readEscape : Glyphs → Option (Char × Glyphs)
  | [] => none
  | g :: (rest : Glyphs) =>
    match letterEscapes.lookup g.char with
    | some code => some (Char.ofNat code, rest)
    | none => do
      let width ← numberEscapes.lookup g.char
      let digits := (rest.take width).map (·.char)
      let values ← digits.mapM Json.hexValue?
      if digits.length < width then none
      else return (← charOf? (values.foldl (fun n d => n * 16 + d) 0), rest.skip width)

/-- Reads on in a quoted text, of which the characters so far are held in reverse. In double quotes
a backslash escapes, in single ones a quote is written twice. -/
def quotedFrom (isDouble : Bool) : Nat → List Char → Held → Glyphs → ScalarReading
  | 0, _, _, _ => none
  | _, _, _, [] => none
  | fuel + 1, done, held, g :: (rest : Glyphs) =>
    let joined := held.folded.reverse ++ done
    if isBreak g.char || isBlank g.char then quotedFrom isDouble fuel done (held.add g.char) rest
    else if held.hasBreak && Glyphs.atDocumentMarker (g :: rest) then none
    else if isDouble then
      if g.char = '"' then some (String.ofList joined.reverse, rest)
      else if g.char = '\\' then
        if rest.next?.any isBreak then
          quotedFrom isDouble fuel joined (.breaks none []) (rest.skip 1)
        else (readEscape rest).bind fun (c, rest) =>
          quotedFrom isDouble fuel (c :: joined) .nothing rest
      else quotedFrom isDouble fuel (g.char :: joined) .nothing rest
    else if g.char = '\'' then
      if rest.next? = some '\'' then
        quotedFrom isDouble fuel ('\'' :: joined) .nothing (rest.skip 1)
      else some (String.ofList joined.reverse, rest)
    else quotedFrom isDouble fuel (g.char :: joined) .nothing rest

/-- A quoted text, from behind its opening quote. -/
def readQuoted (isDouble : Bool) (s : Glyphs) : ScalarReading :=
  quotedFrom isDouble (s.length + 1) [] .nothing s

/-! ## Texts over lines -/

/-- What becomes of the line ends behind a text over lines. -/
inductive Tail where
  /-- All are dropped. -/
  | strip
  /-- One is kept. -/
  | clip
  /-- All are kept. -/
  | keep
  deriving DecidableEq

/-- The head of a text over lines: its tail, and the width of its margin if it is given. -/
structure BlockHead where
  tail : Tail := .clip
  width : Option Nat := none

def tailOf? : Char → Option Tail
  | '+' => some .keep
  | '-' => some .strip
  | _ => none

def widthOf? (c : Char) : Option Nat := (Text.digitValue? c).filter (0 < ·)

/-- The signs of a head, in either order. -/
def readHead (s : Glyphs) : BlockHead × Glyphs :=
  let tail (s : Glyphs) := s.next?.bind tailOf?
  let width (s : Glyphs) := s.next?.bind widthOf?
  match tail s with
  | some t =>
    match width (s.skip 1) with
    | some w => (⟨t, some w⟩, s.skip 2)
    | none => (⟨t, none⟩, s.skip 1)
  | none =>
    match width s with
    | some w =>
      match tail (s.skip 1) with
      | some t => (⟨t, some w⟩, s.skip 2)
      | none => (⟨.clip, some w⟩, s.skip 1)
    | none => ({}, s)

/-- What follows a head: the rest of its line may hold only a comment. -/
def skipHeadLine (s : Glyphs) : Option Glyphs :=
  let s := s.skipBlanks
  let s := if s.next? = some '#' then s.skipLine else s
  if s.endsLine then some (s.skip 1) else none

/-- Skips the margin of a line, and lines that are empty. A margin that is not known yet takes all
blanks. Gives the line ends and the widest margin; a tab in the margin is a fault. -/
def skipMargin (margin : Option Nat) (widest : Nat) (breaks : List Char) :
    Glyphs → Option ((List Char × Nat) × Glyphs)
  | [] => some ((breaks, widest), [])
  | g :: rest =>
    let inMargin := margin.all (g.column < ·)
    if g.char = ' ' && inMargin then skipMargin margin widest breaks rest
    else if g.char = '\t' && inMargin then none
    else if isBreak g.char then skipMargin margin (max widest g.column) (breaks ++ [g.char]) rest
    else some ((breaks, max widest g.column), g :: rest)

/-- A text over lines so far: its characters, the end of its last line, the line ends after that,
and whether its last line begins with a blank. -/
structure BlockText where
  done : List Char := []
  lastBreak : Option Char := none
  emptyLines : List Char := []
  indented : Bool := false

/-- The text with one more line. Folded, a single line end between two lines that do not begin with
blanks stands for a blank. -/
def BlockText.addLine (isFolded : Bool) (line : List Char) (t : BlockText) : List Char :=
  let lineIndented := line.head?.any isBlank
  let join :=
    if isFolded && t.lastBreak = some '\n' && !t.indented && !lineIndented then
      if t.emptyLines.isEmpty then [' '] else []
    else t.lastBreak.toList
  t.done ++ join ++ t.emptyLines ++ line

/-- The text with the line ends behind it that its tail keeps. -/
def BlockText.finish (tail : Tail) (t : BlockText) : String :=
  String.ofList <| match tail with
    | .strip => t.done
    | .clip => t.done ++ t.lastBreak.toList
    | .keep => t.done ++ t.lastBreak.toList ++ t.emptyLines

/-- Reads lines for as long as they stand at the margin. -/
def blockLines (isFolded : Bool) (margin : Nat) : Nat → BlockText → Glyphs →
    Option (BlockText × Glyphs)
  | 0, _, _ => none
  | fuel + 1, t, s =>
    if s.isEmpty || s.column ≠ margin then some (t, s)
    else
      let line := s.lineRest
      let after := s.skipLine
      (skipMargin (some margin) 0 [] (after.skip 1)).bind fun ((breaks, _), rest) =>
        blockLines isFolded margin fuel
          { done := t.addLine isFolded line
            lastBreak := after.next?
            emptyLines := breaks
            indented := line.head?.any isBlank } rest

/-- A text over lines, from behind its mark. Its margin is that of its first line, but never to the
left of the floor. -/
def readBlock (isFolded : Bool) (floor : Nat) (s : Glyphs) : ScalarReading := do
  let (head, rest) := readHead s
  let rest ← skipHeadLine rest
  let given := head.width.map (floor - 1 + ·)
  let ((breaks, widest), rest) ← skipMargin given 0 [] rest
  let margin := given.getD (max widest (max floor 1))
  let (t, rest) ← blockLines isFolded margin (rest.length + 1) { emptyLines := breaks } rest
  return (t.finish head.tail, rest)

end FleetRegistry.Yaml
