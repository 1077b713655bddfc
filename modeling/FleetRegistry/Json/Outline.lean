import FleetRegistry.Json.Parser
import FleetRegistry.Text.Bytes

/-!
The parts of a JSON text as they are written. What is only passed over has to keep to the grammar
and to nothing else: the bytes between its quotes need not be UTF-8, halves of surrogate pairs may
stand alone, numbers may be of any size, and values may be nested to any depth. So the text is taken
byte by byte, each byte as the character of its code.
-/
namespace FleetRegistry.Json

/-! ## Strings and numbers -/

/-- The characters that may stand after a backslash, next to `u` with four digits. -/
def isEscape (c : Char) : Bool :=
  ['"', '\\', '/', 'b', 'f', 'n', 'r', 't'].contains c

/-- Passes over a string whose opening quote has been read, to what follows its closing quote. -/
def skipString : List Char → Option (List Char)
  | [] => none
  | '"' :: rest => some rest
  | '\\' :: 'u' :: a :: b :: c :: d :: rest =>
    if [a, b, c, d].all fun digit => (hexValue? digit).isSome then skipString rest else none
  | '\\' :: c :: rest => if isEscape c then skipString rest else none
  | c :: rest => if c.toNat < 0x20 then none else skipString rest

/-- Passes over one digit or more. -/
def skipDigits : List Char → Option (List Char)
  | [] => none
  | c :: rest => if c.isDigit then some (rest.dropWhile Char.isDigit) else none

/-- The digits in front of the point; nothing but the point may follow a zero at the front. -/
def skipWhole : List Char → Option (List Char)
  | '0' :: rest => if rest.head?.any Char.isDigit then none else some rest
  | s => skipDigits s

def skipFraction : List Char → Option (List Char)
  | '.' :: rest => skipDigits rest
  | s => some s

def skipExponent : List Char → Option (List Char)
  | 'e' :: rest => skipDigits (takeSign rest).2
  | 'E' :: rest => skipDigits (takeSign rest).2
  | s => some s

def skipNumber (s : List Char) : Option (List Char) := do
  let unsigned := match s with
    | '-' :: rest => rest
    | _ => s
  skipExponent (← skipFraction (← skipWhole unsigned))

/-! ## Values -/

/-- What is written at the front of a text, up to what follows it. -/
def written (s rest : List Char) : List Char := s.take (s.length - rest.length)

/-- A value with its direct parts as they are written. -/
inductive Outline where
  | scalar
  | items (parts : List (List Char))
  /-- Names, in their quotes, with values. -/
  | members (parts : List (List Char × List Char))
  deriving Repr

mutual

/-- The outline of the value at the front of a text, and what follows. The number bounds the
work. -/
def outlineFrom : Nat → List Char → Option (Outline × List Char)
  | 0, _ => none
  | fuel + 1, s =>
    match skipGap s with
    | '"' :: rest => (skipString rest).map (.scalar, ·)
    | '[' :: rest =>
      match skipGap rest with
      | ']' :: rest => some (.items [], rest)
      | rest => (itemsFrom fuel rest).map fun (parts, rest) => (.items parts, rest)
    | '\x7b' :: rest =>
      match skipGap rest with
      | '\x7d' :: rest => some (.members [], rest)
      | rest => (membersFrom fuel rest).map fun (parts, rest) => (.members parts, rest)
    | 'n' :: rest => (dropWord ['u', 'l', 'l'] rest).toOption.map (.scalar, ·)
    | 't' :: rest => (dropWord ['r', 'u', 'e'] rest).toOption.map (.scalar, ·)
    | 'f' :: rest => (dropWord ['a', 'l', 's', 'e'] rest).toOption.map (.scalar, ·)
    | s => (skipNumber s).map (.scalar, ·)

/-- One or more items up to the closing bracket. -/
def itemsFrom : Nat → List Char → Option (List (List Char) × List Char)
  | 0, _ => none
  | fuel + 1, s => do
    let (_, rest) ← outlineFrom fuel s
    let item := written s rest
    match skipGap rest with
    | ',' :: rest => do
      let (items, rest) ← itemsFrom fuel rest
      return (item :: items, rest)
    | ']' :: rest => return ([item], rest)
    | _ => none

/-- One or more members up to the closing brace. -/
def membersFrom : Nat → List Char → Option (List (List Char × List Char) × List Char)
  | 0, _ => none
  | fuel + 1, s =>
    match skipGap s with
    | '"' :: rest => do
      let afterName ← skipString rest
      let name := written ('"' :: rest) afterName
      match skipGap afterName with
      | ':' :: value => do
        let (_, rest) ← outlineFrom fuel value
        let member := (name, written value rest)
        match skipGap rest with
        | ',' :: rest => do
          let (members, rest) ← membersFrom fuel rest
          return (member :: members, rest)
        | '\x7d' :: rest => return ([member], rest)
        | _ => none
      | _ => none
    | _ => none

end

/-- The outline of a whole text. -/
def outline? (bytes : List UInt8) : Option Outline := do
  let s := bytes.map Text.charOf
  let (outline, rest) ← outlineFrom (2 * s.length + 2) s
  if (skipGap rest).isEmpty then some outline else none

/-- The value of a part, which has to be UTF-8 and proper JSON. -/
def readPart? (part : List Char) : Option Json :=
  (Text.ofBytes? (part.map Text.byteOf)).bind fun text => read? text.toList

end FleetRegistry.Json
