import FleetRegistry.Json.Basic
import FleetRegistry.Text.Cut
import FleetRegistry.Text.Digits

/-!
Pointers into JSON values: a list of steps, each the name of a member or the position of an item. In
text every step follows a slash; a tilde and a slash inside a step are written `~0` and `~1`.
-/
namespace FleetRegistry.Json

abbrev Pointer := List String

namespace Pointer

/-- A step without its escapes; a tilde has to be part of an escape. -/
def unescape? : List Char → Option (List Char)
  | [] => some []
  | '~' :: '0' :: rest => (unescape? rest).map ('~' :: ·)
  | '~' :: '1' :: rest => (unescape? rest).map ('/' :: ·)
  | '~' :: _ => none
  | c :: rest => (unescape? rest).map (c :: ·)

/-- The steps of a text. The empty text points at the whole value. -/
def parse? (text : String) : Option Pointer :=
  match text.toList with
  | [] => some []
  | '/' :: rest =>
    (Text.pieces '/' rest).mapM fun step => (unescape? step).map String.ofList
  | _ => none

def escape (step : List Char) : List Char :=
  step.flatMap fun c => if c = '~' then ['~', '0'] else if c = '/' then ['~', '1'] else [c]

def text (pointer : Pointer) : String :=
  String.ofList (pointer.flatMap fun step => '/' :: escape step.toList)

/-- A position in a list: digits without needless zeros. -/
def position? (step : String) : Option Nat :=
  match step.toList with
  | ['0'] => some 0
  | '0' :: _ => none
  | digits => Text.digits? digits

def step? (step : String) : Json → Option Json
  | .obj members => Members.find? step members
  | .arr items => (position? step).bind fun i => items[i]?
  | _ => none

def find? (value : Json) : Pointer → Option Json
  | [] => some value
  | step :: rest => (step? step value).bind (find? · rest)

/-- Replaces the part after one step, which has to be there. -/
def setStep (step : String) (part : Json) : Json → Json
  | .obj members => .obj (Members.set step part members)
  | .arr items =>
    match position? step with
    | some i => .arr (items.set i part)
    | none => .arr items
  | value => value

/-- Changes the part that a pointer leads to; nothing is returned if there is no such part or if it
cannot be changed. -/
def modify? (change : Json → Option Json) (value : Json) : Pointer → Option Json
  | [] => change value
  | step :: rest => do
    let part ← step? step value
    let changed ← modify? change part rest
    return setStep step changed value

end Pointer

end FleetRegistry.Json
