import FleetRegistry.Text.Digits
import FleetRegistry.Time.Calendar

/-!
Instants of universal time, exact to the nanosecond. They are read with their offset and written
in whole seconds of universal time; the finer form keeps the fraction.
-/
namespace FleetRegistry

namespace Instant

def earliestSecond : Int := -377705023201

def latestSecond : Int := 253402207200

/-- Whether the date is in the years -9999 to 9999 under every offset. -/
def hasDate (seconds : Int) : Bool := earliestSecond ≤ seconds && seconds ≤ latestSecond

end Instant

/-- A point in time: whole seconds since the start of 1970 and a fraction that follows them. -/
structure Instant where
  seconds : Int
  nanos : Fin 1000000000
  dated : Instant.hasDate seconds = true := by rfl
  deriving DecidableEq, Repr

namespace Instant

structure Clock where
  hour : Nat
  minute : Nat
  second : Nat
  nanos : Nat

def fixed? (width : Nat) (s : List Char) : Option (Nat × List Char) :=
  if s.length < width then none
  else (Text.digits? (s.take width)).map (·, s.drop width)

def skip? (c : Char) : List Char → Option (List Char)
  | [] => none
  | d :: rest => if d = c then some rest else none

/-- Reads the year: four digits, or six after a sign. -/
def year? : List Char → Option (Int × List Char)
  | '-' :: rest => (fixed? 6 rest).bind fun (year, rest) =>
    if year = 0 then none else some (-(year : Int), rest)
  | '+' :: rest => (fixed? 6 rest).map fun (year, rest) => ((year : Int), rest)
  | s => (fixed? 4 s).map fun (year, rest) => ((year : Int), rest)

def date? (s : List Char) : Option (Time.Date × List Char) := do
  let (year, rest) ← year? s
  let dashed := rest.head? = some '-'
  let rest ← if dashed then skip? '-' rest else some rest
  let (month, rest) ← fixed? 2 rest
  let rest ← if dashed then skip? '-' rest else some rest
  let (day, rest) ← fixed? 2 rest
  let date : Time.Date := ⟨year, month, day⟩
  if date.isValid && -9999 ≤ year && year ≤ 9999 then return (date, rest) else none

/-- Reads a fraction in one to nine digits after a point or comma, if there is one. -/
def fraction? : List Char → Option (Nat × List Char)
  | '.' :: rest => digits? rest
  | ',' :: rest => digits? rest
  | s => some (0, s)
where
  digits? (s : List Char) : Option (Nat × List Char) :=
    let (digits, rest) := Text.takeDigits s
    if digits.length > 9 then none
    else (Text.digits? digits).map fun value => (value * Nat.pow 10 (9 - digits.length), rest)

/-- Reads two more digits if they are announced: by a colon, or by a digit where there are no
colons. -/
def pair? (colons : Bool) : List Char → Option (Option Nat × List Char)
  | [] => some (none, [])
  | c :: rest =>
    if colons && c = ':' then (fixed? 2 rest).map fun (n, rest) => (some n, rest)
    else if !colons && c.isDigit then (fixed? 2 (c :: rest)).map fun (n, rest) => (some n, rest)
    else some (none, c :: rest)

/-- Reads minutes, seconds and a fraction, as far as they are given. -/
def minutes? (s : List Char) : Option ((Nat × Nat × Nat) × List Char) := do
  let colons := s.head? = some ':'
  let (minute, rest) ← pair? colons s
  match minute with
  | none => return ((0, 0, 0), rest)
  | some minute =>
    let (second, rest) ← pair? colons rest
    match second with
    | none => return ((minute, 0, 0), rest)
    | some second =>
      let (nanos, rest) ← fraction? rest
      return ((minute, second, nanos), rest)

/-- Reads the time of day. A leap second counts as the second before it. -/
def clock? (s : List Char) : Option (Clock × List Char) := do
  let (hour, rest) ← fixed? 2 s
  let ((minute, second, nanos), rest) ← minutes? rest
  if hour ≤ 23 ∧ minute ≤ 59 ∧ second ≤ 60 then
    return (⟨hour, minute, min second 59, nanos⟩, rest)
  else none

/-- Reads an offset, which is rounded to the second. -/
def offset? : List Char → Option (Int × List Char)
  | 'Z' :: rest => some (0, rest)
  | 'z' :: rest => some (0, rest)
  | '+' :: rest => (amount? rest).map fun (seconds, rest) => ((seconds : Int), rest)
  | '-' :: rest => (amount? rest).map fun (seconds, rest) => (-(seconds : Int), rest)
  | _ => none
where
  amount? (s : List Char) : Option (Nat × List Char) := do
    let (hour, rest) ← fixed? 2 s
    let ((minute, second, nanos), rest) ← minutes? rest
    let carry := if nanos ≥ 500000000 then 1 else 0
    let seconds := hour * 3600 + minute * 60 + second + carry
    if hour ≤ 25 ∧ minute ≤ 59 ∧ second ≤ 59 ∧ seconds < 26 * 3600 then return (seconds, rest)
    else none

/-! ## Annotations

Behind the offset a text may name a time zone and other things in brackets. They have to be
well-formed, and none but the time zone may be marked as critical; the instant does not depend on
them. -/

def isZoneStart (c : Char) : Bool := c.isAlpha || c = '.' || c = '_'

def isZoneChar (c : Char) : Bool := isZoneStart c || c.isDigit || c = '-' || c = '+'

def isKeyStart (c : Char) : Bool := c.isLower || c = '_'

def isKeyChar (c : Char) : Bool := isKeyStart c || c.isDigit || c = '-'

/-- Passes over words between separators, of which there is at least one. -/
def dropWords? (separator : Char) (start inside : Char → Bool) (fresh : Bool) :
    List Char → Option (List Char)
  | [] => if fresh then none else some []
  | c :: rest =>
    if fresh then if start c then dropWords? separator start inside false rest else none
    else if inside c then dropWords? separator start inside false rest
    else if c = separator then dropWords? separator start inside true rest
    else some (c :: rest)

/-- Passes over a time zone, by its name or by an offset in minutes. -/
def dropZone? : List Char → Option (List Char)
  | '+' :: rest => dropOffset? rest
  | '-' :: rest => dropOffset? rest
  | s => dropWords? '/' isZoneStart isZoneChar true s
where
  dropOffset? (s : List Char) : Option (List Char) := do
    let (hour, rest) ← fixed? 2 s
    let (minute, rest) ← pair? (rest.head? = some ':') rest
    if hour ≤ 25 && minute.all (· ≤ 59) then return rest else none

/-- Passes over a key with its values. -/
def dropPair? (s : List Char) : Option (List Char) :=
  match s with
  | [] => none
  | c :: rest =>
    if isKeyStart c then
      (skip? '=' (rest.dropWhile isKeyChar)).bind
        (dropWords? '-' Char.isAlphanum Char.isAlphanum true)
    else none

/-- Passes over the time zone in brackets, if that is what stands in the first brackets. -/
def behindZone (s : List Char) : List Char :=
  let zone? := do
    let rest ← skip? '[' s
    let rest ← dropZone? ((skip? '!' rest).getD rest)
    skip? ']' rest
  zone?.getD s

/-- Whether a text is made of annotations other than a time zone, none of them critical. The number
bounds the work. -/
def arePairs : Nat → List Char → Bool
  | _, [] => true
  | 0, _ => false
  | fuel + 1, s =>
    match (skip? '[' s).bind fun rest => (dropPair? rest).bind (skip? ']') with
    | some rest => arePairs fuel rest
    | none => false

def areAnnotations (s : List Char) : Bool := arePairs s.length (behindZone s)

/-- The instant a text names: a date, a `T` or a blank, a time of day and an offset, and behind them
any annotations. -/
def parse? (text : String) : Option Instant := do
  let (date, rest) ← date? text.toList
  let rest ← match rest with
    | 'T' :: rest => some rest
    | 't' :: rest => some rest
    | ' ' :: rest => some rest
    | _ => none
  let (clock, rest) ← clock? rest
  let (offset, rest) ← offset? rest
  let wall := date.toDays * 86400 + clock.hour * 3600 + clock.minute * 60 + clock.second
  let seconds := wall - offset
  let nanos := Fin.ofNat 1000000000 clock.nanos
  if !areAnnotations rest then none
  else if dated : hasDate seconds then return ⟨seconds, nanos, dated⟩
  else none

/-- The year with its sign where it has one: four digits, or as many as `signedWidth` after a
sign. -/
def yearText (signedWidth : Nat) (year : Int) : String :=
  if 0 ≤ year then Text.padded 4 year.toNat
  else "-" ++ Text.padded signedWidth year.natAbs

def wholeText (signedWidth : Nat) (seconds : Int) : String :=
  let date := Time.Date.ofDays (seconds / 86400)
  let second := (seconds % 86400).toNat
  yearText signedWidth date.year ++ "-" ++ Text.padded 2 date.month ++ "-" ++ Text.padded 2 date.day
    ++ "T" ++ Text.padded 2 (second / 3600) ++ ":" ++ Text.padded 2 (second / 60 % 60)
    ++ ":" ++ Text.padded 2 (second % 60)

def text (instant : Instant) : String :=
  wholeText 6 instant.seconds ++ "Z"

/-- A fraction in three, six or nine digits, whichever suffices. -/
def fractionText (nanos : Nat) : String :=
  if nanos = 0 then ""
  else if nanos % 1000000 = 0 then "." ++ Text.padded 3 (nanos / 1000000)
  else if nanos % 1000 = 0 then "." ++ Text.padded 6 (nanos / 1000)
  else "." ++ Text.padded 9 nanos

/-- The instant with its fraction. Before 1970 only whole seconds have such a form. -/
def exactText (instant : Instant) : String :=
  if instant.seconds < 0 ∧ instant.nanos ≠ 0 then ""
  else wholeText 4 instant.seconds ++ fractionText instant.nanos ++ "+00:00"

end Instant

end FleetRegistry
