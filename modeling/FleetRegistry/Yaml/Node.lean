import FleetRegistry.Yaml.Scalar

/-!
The structure of a YAML text: scalars, lists and maps, in blocks by indentation or in brackets. A
text holds one document. Keys are scalars. Anchors, tags and keys behind a mark are not read.

A block belongs to the column at which its first item or key stands. Whatever stands to the right of
that column belongs to the item or key before it, and whatever stands to the left ends the block.
-/
namespace FleetRegistry.Yaml

inductive Node where
  /-- A text; whether it is plain decides what it can mean. -/
  | scalar (isPlain : Bool) (text : String)
  | sequence (items : List Node)
  | mapping (entries : List (String × Node))
  deriving Inhabited

namespace Node

/-- What stands where nothing is written. -/
def empty : Node := scalar true ""

def text? : Node → Option String
  | scalar _ text => some text
  | _ => none

mutual

def depth : Node → Nat
  | scalar _ _ => 0
  | sequence items => itemsDepth items + 1
  | mapping entries => entriesDepth entries + 1

def itemsDepth : List Node → Nat
  | [] => 0
  | item :: rest => max (depth item) (itemsDepth rest)

def entriesDepth : List (String × Node) → Nat
  | [] => 0
  | (_, value) :: rest => max (depth value) (entriesDepth rest)

end

end Node

def maxKeyLength : Nat := 1024

/-- A key ends in the line that it begins in, and is not too long. -/
def isKeySpan (start colon : Glyphs) : Bool :=
  start.line? == colon.line? && colon.index ≤ start.index + maxKeyLength

def keyText? (key : Node) (start colon : Glyphs) : Option String :=
  if isKeySpan start colon then key.text? else none

def ScalarReading.node (isPlain : Bool) (reading : ScalarReading) : Option (Node × Glyphs) :=
  reading.map fun (text, rest) => (.scalar isPlain text, rest)

mutual

def readFlow : Nat → Bool → Nat → Glyphs → Option (Node × Glyphs)
  | 0, _, _, _ => none
  | fuel + 1, inFlow, floor, s =>
    if s.atDocumentMarker then none
    else if s.next? = some '[' then
      (readFlowItems fuel floor (s.skip 1)).map fun (items, rest) => (.sequence items, rest)
    else if s.next? = some '\x7b' then
      (readFlowEntries fuel floor (s.skip 1)).map fun (entries, rest) => (.mapping entries, rest)
    else if s.next? = some '"' then (readQuoted true (s.skip 1)).node false
    else if s.next? = some '\'' then (readQuoted false (s.skip 1)).node false
    else if startsPlain inFlow s then (readPlain inFlow floor s).node true
    else none

/-- The value of a key in brackets, from behind its colon; nothing has to be there. -/
def readFlowValue : Nat → Nat → Glyphs → Option (Node × Glyphs)
  | 0, _, _ => none
  | fuel + 1, floor, s =>
    let start := s.skipInFlow
    if start.next?.any (· ∈ [',', ']', '\x7d']) then some (.empty, start)
    else readFlow fuel true floor start

/-- Items up to the closing bracket. A key with a value is a map of its own. -/
def readFlowItems : Nat → Nat → Glyphs → Option (List Node × Glyphs)
  | 0, _, _ => none
  | fuel + 1, floor, s => do
    let start := s.skipInFlow
    if start.next? = some ']' then return ([], start.skip 1)
    let (node, rest) ← readFlow fuel true floor start
    let after := rest.skipInFlow
    let (item, after) ←
      if after.next? = some ':' then do
        let key ← keyText? node start after
        let (value, rest) ← readFlowValue fuel floor (after.skip 1)
        pure (.mapping [(key, value)], rest.skipInFlow)
      else pure (node, after)
    if after.next? = some ',' then
      let (items, rest) ← readFlowItems fuel floor (after.skip 1)
      return (item :: items, rest)
    else if after.next? = some ']' then return ([item], after.skip 1)
    else none

/-- Keys with their values up to the closing brace. -/
def readFlowEntries : Nat → Nat → Glyphs → Option (List (String × Node) × Glyphs)
  | 0, _, _ => none
  | fuel + 1, floor, s => do
    let start := s.skipInFlow
    if start.next? = some '\x7d' then return ([], start.skip 1)
    let (node, rest) ← readFlow fuel true floor start
    let after := rest.skipInFlow
    let (entry, after) ←
      if after.next? = some ':' then do
        let key ← keyText? node start after
        let (value, rest) ← readFlowValue fuel floor (after.skip 1)
        pure ((key, value), rest.skipInFlow)
      else do
        pure ((← node.text?, .empty), after)
    if after.next? = some ',' then
      let (entries, rest) ← readFlowEntries fuel floor (after.skip 1)
      return (entry :: entries, rest)
    else if after.next? = some '\x7d' then return ([entry], after.skip 1)
    else none

end

/-- Whether nothing more belongs to a block of some column. -/
def endsBlock (column : Nat) (s : Glyphs) : Bool :=
  s.isEmpty || s.atDocumentMarker || s.column < column

mutual

/-- A node in a block. Where no block may begin, for something else stands in front of it in its
line, it is a scalar or stands in brackets. -/
def readBlockNode : Nat → Nat → Bool → Glyphs → Option (Node × Glyphs)
  | 0, _, _, _ => none
  | fuel + 1, floor, mayBegin, s =>
    if s.atMark '-' then
      if mayBegin then
        (readItems fuel s.column false s).map fun (items, rest) => (.sequence items, rest)
      else none
    else if s.next? = some '|' then (readBlock false floor (s.skip 1)).node false
    else if s.next? = some '>' then (readBlock true floor (s.skip 1)).node false
    else do
      let (node, rest) ← readFlow fuel false floor s
      let after := rest.skipBlanks
      if after.atMark ':' then
        if mayBegin then
          let key ← keyText? node s after
          let (entries, rest) ← readEntries fuel s.column key after
          return (.mapping entries, rest)
        else none
      else return (node, rest)

/-- The value of a key of a map at some column, from its colon on. A list may stand under its key
without a further level. -/
def readValue : Nat → Nat → Glyphs → Option (Node × Glyphs)
  | 0, _, _ => none
  | fuel + 1, column, colon =>
    let start := (colon.skip 1).skipInBlock
    if endsBlock column start then some (.empty, start)
    else if start.line? == colon.line? then readBlockNode fuel (column + 1) false start
    else if column < start.column then readBlockNode fuel (column + 1) true start
    else if start.atMark '-' then
      (readItems fuel column true start).map fun (items, rest) => (.sequence items, rest)
    else some (.empty, start)

/-- The keys of a map at some column with their values, from the colon of the first on. -/
def readEntries : Nat → Nat → String → Glyphs → Option (List (String × Node) × Glyphs)
  | 0, _, _, _ => none
  | fuel + 1, column, key, colon => do
    let (value, rest) ← readValue fuel column colon
    let next := rest.skipInBlock
    if endsBlock column next then return ([(key, value)], next)
    else if next.column ≠ column then none
    else
      let (node, rest) ← readFlow fuel false (column + 1) next
      let after := rest.skipBlanks
      if after.atMark ':' then
        let nextKey ← keyText? node next after
        let (entries, rest) ← readEntries fuel column nextKey after
        return ((key, value) :: entries, rest)
      else none

/-- The items of a list at some column, from the mark of the first on. A list without a level of its
own also ends where a key follows at its column. -/
def readItems : Nat → Nat → Bool → Glyphs → Option (List Node × Glyphs)
  | 0, _, _, _ => none
  | fuel + 1, column, underKey, mark => do
    let start := (mark.skip 1).skipIndent
    let (item, rest) ←
      if endsBlock column start || (start.line? != mark.line? && start.column = column) then
        pure (.empty, start)
      else readBlockNode fuel (column + 1) true start
    let next := rest.skipInBlock
    if endsBlock column next then return ([item], next)
    else if next.column ≠ column then none
    else if next.atMark '-' then
      let (items, rest) ← readItems fuel column underKey next
      return (item :: items, rest)
    else if underKey then return ([item], next)
    else none

end

def maxDepth : Nat := 128

/-- Whether only the end of the text follows a document. -/
def endsText (s : Glyphs) : Bool :=
  let next := s.skipInBlock
  next.isEmpty || (next.atMarker '.' && (next.skip 3).skipInBlock.isEmpty)

/-- The document at the front of a text. Behind a mark in its line no block begins. -/
def readDocument (s : Glyphs) : Option (Node × Glyphs) :=
  let fuel := 4 * s.length + 8
  let start := s.skipIndent
  if start.atMarker '-' then
    let content := (start.skip 3).skipInBlock
    if endsBlock 0 content then some (.empty, content)
    else readBlockNode fuel 0 (content.line? != start.line?) content
  else if start.isEmpty then some (.empty, start)
  else readBlockNode fuel 0 true start

def parse? (text : String) : Option Node := do
  let (node, rest) ← readDocument (← glyphs? text)
  if endsText rest && node.depth ≤ maxDepth then return node else none

end FleetRegistry.Yaml
