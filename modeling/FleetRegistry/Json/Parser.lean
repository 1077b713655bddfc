import FleetRegistry.Json.Basic

/-!
Reading JSON text. `read` keeps the members of objects as they are written, repeated names
included; `parse?` brings them into canonical form. Values may be nested at most 127 levels deep.
A text that is wrong is told apart from one that only stops too early.
-/
namespace FleetRegistry.Json

inductive ReadFault where
  /-- The text stops before the value does. -/
  | cutShort
  | malformed
  deriving DecidableEq, Repr

/-- Reading from the front of a text gives a value and what follows it. -/
abbrev Reading := Except ReadFault

def unread (s : List Char) : ReadFault := if s.isEmpty then .cutShort else .malformed

def isGap (c : Char) : Bool := c = ' ' || c = '\n' || c = '\t' || c = '\r'

def skipGap (s : List Char) : List Char := s.dropWhile isGap

def hexValue? (c : Char) : Option Nat :=
  if '0' ≤ c ∧ c ≤ '9' then some (c.toNat - '0'.toNat)
  else if 'a' ≤ c ∧ c ≤ 'f' then some (c.toNat - 'a'.toNat + 10)
  else if 'A' ≤ c ∧ c ≤ 'F' then some (c.toNat - 'A'.toNat + 10)
  else none

def readHex4 : List Char → Reading (Nat × List Char)
  | a :: b :: c :: d :: rest =>
    match hexValue? a, hexValue? b, hexValue? c, hexValue? d with
    | some a, some b, some c, some d => .ok (((a * 16 + b) * 16 + c) * 16 + d, rest)
    | _, _, _, _ => .error .malformed
  | _ => .error .cutShort

/-- The second half of a pair of numbers that stand for one character. -/
def readSecondHalf (first : Nat) (s : List Char) : Reading (Char × List Char) :=
  match s with
  | '\\' :: 'u' :: rest => do
    let (second, rest) ← readHex4 rest
    if 0xdc00 ≤ second ∧ second ≤ 0xdfff then
      return (Char.ofNat ((first - 0xd800) * 0x400 + (second - 0xdc00) + 0x10000), rest)
    else .error .malformed
  | ['\\'] => .error .cutShort
  | s => .error (unread s)

/-- The character after a backslash. Two numbers in the surrogate range stand for one character;
one alone stands for none. -/
def readEscape : List Char → Reading (Char × List Char)
  | '"' :: rest => .ok ('"', rest)
  | '\\' :: rest => .ok ('\\', rest)
  | '/' :: rest => .ok ('/', rest)
  | 'b' :: rest => .ok ('\x08', rest)
  | 'f' :: rest => .ok ('\x0c', rest)
  | 'n' :: rest => .ok ('\n', rest)
  | 'r' :: rest => .ok ('\r', rest)
  | 't' :: rest => .ok ('\t', rest)
  | 'u' :: rest => do
    let (first, rest) ← readHex4 rest
    if 0xdc00 ≤ first ∧ first ≤ 0xdfff then .error .malformed
    else if 0xd800 ≤ first ∧ first ≤ 0xdbff then readSecondHalf first rest
    else return (Char.ofNat first, rest)
  | s => .error (unread s)

/-- The characters of a string after its opening quote, and what follows its closing quote. The
characters read so far are held in reverse. -/
def readString : Nat → List Char → List Char → Reading (String × List Char)
  | 0, _, _ => .error .cutShort
  | fuel + 1, done, s =>
    match s with
    | [] => .error .cutShort
    | '"' :: rest => .ok (String.ofList done.reverse, rest)
    | '\\' :: rest => (readEscape rest).bind fun (c, rest) => readString fuel (c :: done) rest
    | c :: rest =>
      if c.toNat < 0x20 then .error .malformed else readString fuel (c :: done) rest

/-- The digits of a number as they are taken in: as many as an unsigned word holds, then the power
of ten by which the taken digits have to be scaled. -/
structure Significand where
  value : Nat
  exponent : Int

def maxWord : Nat := UInt64.size - 1

/-- Takes digits until the next one does not fit into a word. -/
def takeFitting (value : Nat) : List Char → Nat × List Char
  | [] => (value, [])
  | c :: rest =>
    if c.isDigit then
      let next := value * 10 + (c.toNat - '0'.toNat)
      if next ≤ maxWord then takeFitting next rest else (value, c :: rest)
    else (value, c :: rest)

/-- Digits in front of the point. Those beyond a word only count. -/
def readWhole (s : List Char) : Significand × Bool × List Char :=
  let (value, rest) := takeFitting 0 s
  let extra := rest.takeWhile Char.isDigit
  (⟨value, extra.length⟩, extra.isEmpty, rest.dropWhile Char.isDigit)

/-- Digits after the point, at least one. Those beyond a word are left out. -/
def readFraction (start : Significand) (s : List Char) : Reading (Significand × List Char) :=
  let (value, rest) := takeFitting start.value s
  let taken := s.length - rest.length
  if taken = 0 ∧ !(rest.head?.any Char.isDigit) then .error (unread rest)
  else .ok (⟨value, start.exponent - taken⟩, rest.dropWhile Char.isDigit)

/-- A sign at the front of a text: whether it is a minus, and the rest. -/
def takeSign : List Char → Bool × List Char
  | '-' :: rest => (true, rest)
  | '+' :: rest => (false, rest)
  | s => (false, s)

def readExponent (s : List Char) : Reading (Int × List Char) :=
  let (negative, s) := takeSign s
  let digits := s.takeWhile Char.isDigit
  if digits.isEmpty then .error (unread s)
  else
    let value := digits.foldl (fun n c => n * 10 + (c.toNat - '0'.toNat)) 0
    .ok (if negative then -(value : Int) else value, s.dropWhile Char.isDigit)

/-- The part of a number after its whole digits: the scaled digits, whether they are all whole. -/
def readTail (whole : Significand) (s : List Char) :
    Reading ((Significand × Bool) × List Char) := do
  let (fraction, isWhole, rest) ← match s with
    | '.' :: rest => (readFraction whole rest).map fun (f, rest) => (f, false, rest)
    | _ => .ok (whole, true, s)
  let scaled (rest : List Char) : Reading ((Significand × Bool) × List Char) :=
    (readExponent rest).map fun (e, rest) =>
      ((⟨fraction.value, fraction.exponent + e⟩, false), rest)
  match rest with
  | 'e' :: rest => scaled rest
  | 'E' :: rest => scaled rest
  | _ => .ok ((fraction, isWhole), rest)

/-- A number. Whole numbers that fit into a word are integers; minus zero and all others are
floating point numbers. -/
def readNumber (s : List Char) : Reading (Json × List Char) :=
  let (negative, s) := match s with
    | '-' :: rest => (true, rest)
    | _ => (false, s)
  if !(s.head?.any Char.isDigit) then .error (unread s)
  else do
    let leadingZero := s.head? = some '0'
    let (whole, fits, rest) := readWhole (if leadingZero then ['0'] else s)
    let rest := if leadingZero then s.drop 1 else rest
    if leadingZero ∧ rest.head?.any Char.isDigit then .error .malformed
    else
      let ((scaled, isWhole), rest) ← readTail whole rest
      if isWhole ∧ fits ∧ !negative then return (.int whole.value, rest)
      else if isWhole ∧ fits ∧ whole.value ≠ 0 ∧ whole.value ≤ Nat.pow 2 63 then
        return (.int (-(whole.value : Int)), rest)
      else match Number.Binary64.ofDecimal? negative scaled.value scaled.exponent with
        | some value => return (.float value, rest)
        | none => .error .malformed

def dropWord : List Char → List Char → Except ReadFault (List Char)
  | [], s => .ok s
  | _ :: _, [] => .error .cutShort
  | c :: word, d :: s => if c = d then dropWord word s else .error .malformed

mutual

/-- A value, and what follows it. The first number bounds the work, the second the depth. -/
def readValue : Nat → Nat → List Char → Reading (Json × List Char)
  | 0, _, _ => .error .malformed
  | fuel + 1, depth, s =>
    match skipGap s with
    | '"' :: rest =>
      (readString (rest.length + 1) [] rest).map fun (text, rest) => (.str text, rest)
    | '[' :: rest =>
      match depth with
      | 0 => .error .malformed
      | depth + 1 =>
        match skipGap rest with
        | ']' :: rest => .ok (.arr [], rest)
        | rest => (readItems fuel depth rest).map fun (items, rest) => (.arr items, rest)
    | '\x7b' :: rest =>
      match depth with
      | 0 => .error .malformed
      | depth + 1 =>
        match skipGap rest with
        | '\x7d' :: rest => .ok (.obj [], rest)
        | rest => (readMembers fuel depth rest).map fun (members, rest) => (.obj members, rest)
    | 'n' :: rest => (dropWord ['u', 'l', 'l'] rest).map fun rest => (.null, rest)
    | 't' :: rest => (dropWord ['r', 'u', 'e'] rest).map fun rest => (.bool true, rest)
    | 'f' :: rest => (dropWord ['a', 'l', 's', 'e'] rest).map fun rest => (.bool false, rest)
    | s => readNumber s

/-- One or more items up to the closing bracket. -/
def readItems : Nat → Nat → List Char → Reading (List Json × List Char)
  | 0, _, _ => .error .malformed
  | fuel + 1, depth, s => do
    let (item, rest) ← readValue fuel depth s
    match skipGap rest with
    | ',' :: rest => do
      let (items, rest) ← readItems fuel depth rest
      return (item :: items, rest)
    | ']' :: rest => return ([item], rest)
    | rest => .error (unread rest)

/-- One or more members up to the closing brace. -/
def readMembers : Nat → Nat → List Char → Reading (List (String × Json) × List Char)
  | 0, _, _ => .error .malformed
  | fuel + 1, depth, s => do
    match skipGap s with
    | '"' :: rest => do
      let (name, rest) ← readString (rest.length + 1) [] rest
      match skipGap rest with
      | ':' :: rest => do
        let (value, rest) ← readValue fuel depth rest
        match skipGap rest with
        | ',' :: rest => do
          let (members, rest) ← readMembers fuel depth rest
          return ((name, value) :: members, rest)
        | '\x7d' :: rest => return ([(name, value)], rest)
        | rest => .error (unread rest)
      | rest => .error (unread rest)
    | rest => .error (unread rest)

end

def maxDepth : Nat := 127

def read (s : List Char) : Except ReadFault Json := do
  let (value, rest) ← readValue (2 * s.length + 2) maxDepth s
  if (skipGap rest).isEmpty then return value else .error .malformed

/-- The value a text stands for, members as written, if it is JSON. -/
def read? (s : List Char) : Option Json := (read s).toOption

/-- The value a text stands for, in canonical form. -/
def parse? (text : String) : Option Json := (read? text.toList).map canonical

end FleetRegistry.Json
