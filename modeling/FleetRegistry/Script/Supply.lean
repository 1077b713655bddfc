import FleetRegistry.Object.Generated
import FleetRegistry.Request.Call
import FleetRegistry.Store.Basic

/-!
A supply of what calls find around them, the same on every run of a script. What is made up from it
can be masked: answers then show tokens, numbered in the order in which they first appear, and
steps may use the tokens of identities and names for the values they stand for.
-/
namespace FleetRegistry.Script

/-- A name that may have been made up: its base, and its random part. -/
structure MadeName where
  base : String
  suffix : String

/-- The supply after some calls. -/
structure Supply where
  calls : Nat := 0
  clock : Nat := 0
  names : List MadeName := []
  /-- Random parts of names that have a number. -/
  knownSuffixes : List String := []
  /-- Identities that have a number. -/
  knownUids : List String := []

namespace Supply

/-- The time of day, at which a script stands still. -/
def now : Instant := { seconds := 1942199249, nanos := ⟨123456789, by decide⟩ }

/-- Bytes that look random, different for each call. -/
def bytes (n : Nat) : List UInt8 :=
  let x := (n + 1) * 6364136223846793005 + 1442695040888963407
  (List.range 8).map fun i => UInt8.ofNat ((x ^^^ (x >>> 29)) >>> (3 + 7 * i))

/-- The bytes that all identities begin with. -/
def marker : List UInt8 := [201, 23, 158, 64, 77, 3, 66, 241, 138, 92]

def uid (n : Nat) : String := Generated.uidOfBytes <|
  marker ++ (List.range 6).map fun i => UInt8.ofNat (n >>> (8 * (5 - i)))

/-- How many characters of an identity come from the marker, with hyphens. -/
def markerLength : Nat := 24

def uidLength : Nat := 36

/-- What the next call finds around it. -/
def ambient (s : Supply) : Ambient where
  now := now
  clock := s.clock
  uid := uid s.calls
  suffix := Generated.suffixOfBytes (bytes s.calls)

def next (s : Supply) : Supply := { s with calls := s.calls + 1 }

def advance (millis : Nat) (s : Supply) : Supply := { s with clock := s.clock + millis }

/-- Notes that a call may make up a name for an object. -/
def noting {k : Kind} (o : Object k) (s : Supply) : Supply :=
  match o.metadata.generateName with
  | some base =>
    if base.isEmpty then s
    else
      let base := String.ofList (base.toList.take Generated.baseLimit)
      { s with names := ⟨base, s.ambient.suffix⟩ :: s.names }
  | none => s

/-- Notes that a call may make up a name. -/
def notingCall {k : Kind} (call : Call k) (s : Supply) : Supply :=
  match call with
  | .create object _ | .update _ object _ => s.noting object
  | _ => s

/-! ## Masks -/

def token (label : String) (index : Nat) : String :=
  "<" ++ label ++ "-" ++ Nat.repr (index + 1) ++ ">"

/-- The token of a value among those that have one, to which it is added. -/
def tokenOf (label value : String) (known : List String) : String × List String :=
  match known.idxOf? value with
  | some i => (token label i, known)
  | none => (token label known.length, known ++ [value])

def nowToken : String := "<now>"

/-- A made up value at the front of a text: the token for it, and how long it is. -/
def front? (s : Supply) (text : List Char) : Option (String × Nat × Supply) :=
  if ((uid 0).toList.take markerLength).isPrefixOf text then
    let (token, knownUids) := tokenOf "uid" (String.ofList (text.take uidLength)) s.knownUids
    some (token, uidLength, { s with knownUids })
  else if now.text.toList.isPrefixOf text then some (nowToken, now.text.length, s)
  else match s.names.find? fun name => (name.base ++ name.suffix).toList.isPrefixOf text with
    | some name =>
      let (token, knownSuffixes) := tokenOf "gen" name.suffix s.knownSuffixes
      some (name.base ++ token, name.base.length + name.suffix.length, { s with knownSuffixes })
    | none => none

/-- Masks a text; the first number bounds the work. -/
def maskChars : Nat → List Char → Supply → List Char × Supply
  | 0, text, s => (text, s)
  | _, [], s => ([], s)
  | fuel + 1, c :: rest, s =>
    match s.front? (c :: rest) with
    | some (token, length, s) =>
      let (masked, s) := maskChars fuel ((c :: rest).drop length) s
      (token.toList ++ masked, s)
    | none =>
      let (masked, s) := maskChars fuel rest s
      (c :: masked, s)

def maskText (text : String) (s : Supply) : String × Supply :=
  let (masked, s) := maskChars text.length text.toList s
  (String.ofList masked, s)

mutual

def mask : Json → Supply → Json × Supply
  | .str text, s => let (text, s) := maskText text s; (.str text, s)
  | .arr items, s => let (items, s) := maskItems items s; (.arr items, s)
  | .obj members, s => let (members, s) := maskMembers members s; (.obj members, s)
  | value, s => (value, s)

def maskItems : List Json → Supply → List Json × Supply
  | [], s => ([], s)
  | item :: rest, s =>
    let (item, s) := mask item s
    let (rest, s) := maskItems rest s
    (item :: rest, s)

def maskMembers : List (String × Json) → Supply → List (String × Json) × Supply
  | [], s => ([], s)
  | (name, value) :: rest, s =>
    let (name, s) := maskText name s
    let (value, s) := mask value s
    let (rest, s) := maskMembers rest s
    ((name, value) :: rest, s)

end

/-- Puts identities and names in the place of their tokens. -/
def unmaskText (s : Supply) (text : String) : String :=
  let replaceAll (label : String) (known : List String) (text : String) : String :=
    known.zipIdx.foldl (fun text (value, i) => text.replace (token label i) value) text
  replaceAll "gen" s.knownSuffixes (replaceAll "uid" s.knownUids text)

mutual

def unmask (s : Supply) : Json → Json
  | .str text => .str (s.unmaskText text)
  | .arr items => .arr (unmaskItems s items)
  | .obj members => .obj (unmaskMembers s members)
  | value => value

def unmaskItems (s : Supply) : List Json → List Json
  | [] => []
  | item :: rest => unmask s item :: unmaskItems s rest

def unmaskMembers (s : Supply) : List (String × Json) → List (String × Json)
  | [] => []
  | (name, value) :: rest => (s.unmaskText name, unmask s value) :: unmaskMembers s rest

end

end Supply

end FleetRegistry.Script
