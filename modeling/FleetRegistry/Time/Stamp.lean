import FleetRegistry.Time.Calendar
import FleetRegistry.Time.Instant

/-!
Time stamps that are kept as text. The check admits what RFC 3339 admits: a date, a `T` or a
blank, a time of day with an optional fraction, and an offset of less than a day.
-/
namespace FleetRegistry.Time

/-- Reads hours and minutes of an offset, which together stay below a day. -/
def dropOffset? (s : List Char) : Option (List Char) := do
  let (hour, rest) ← Instant.fixed? 2 s
  let rest ← Instant.skip? ':' rest
  let (minute, rest) ← Instant.fixed? 2 rest
  if hour ≤ 23 ∧ minute ≤ 59 then return rest else none

/-- Reads an optional fraction of at least one digit. -/
def dropFraction? : List Char → Option (List Char)
  | '.' :: rest =>
    if rest.head?.any Char.isDigit then some (rest.dropWhile Char.isDigit) else none
  | s => some s

def dropStamp? (s : List Char) : Option (List Char) := do
  let (year, rest) ← Instant.fixed? 4 s
  let (month, rest) ← Instant.fixed? 2 (← Instant.skip? '-' rest)
  let (day, rest) ← Instant.fixed? 2 (← Instant.skip? '-' rest)
  let rest ← match rest with
    | 'T' :: rest => some rest
    | 't' :: rest => some rest
    | ' ' :: rest => some rest
    | _ => none
  let (hour, rest) ← Instant.fixed? 2 rest
  let (minute, rest) ← Instant.fixed? 2 (← Instant.skip? ':' rest)
  let (second, rest) ← Instant.fixed? 2 (← Instant.skip? ':' rest)
  let rest ← dropFraction? rest
  let rest ← match rest with
    | 'Z' :: rest => some rest
    | 'z' :: rest => some rest
    | '+' :: rest => dropOffset? rest
    | '-' :: rest => dropOffset? rest
    | '\u2212' :: rest => dropOffset? rest
    | _ => none
  let date : Date := ⟨year, month, day⟩
  if date.isValid && hour ≤ 23 && minute ≤ 59 && second ≤ 60 then return rest else none

def isStamp (text : String) : Bool := dropStamp? text.toList == some []

end FleetRegistry.Time
