import FleetRegistry.Json.Decode

/-!
Decoding the fields of a step one by one. The first field that cannot be decoded is named. A field
that is null counts as not given.
-/
namespace FleetRegistry.Script

/-- A decoded value, or the name of the field at fault. -/
abbrev Decoded := Except String

def given? (m : Json.Members) (name : String) : Option Json :=
  (m.find? name).filter (!·.isNull)

def need {α : Type} (m : Json.Members) (name : String) (decode : Json → Option α) : Decoded α :=
  match (m.find? name).bind decode with
  | some a => .ok a
  | none => .error name

def opt {α : Type} (m : Json.Members) (name : String) (decode : Json → Option α) :
    Decoded (Option α) :=
  match given? m name with
  | none => .ok none
  | some value =>
    match decode value with
    | some a => .ok (some a)
    | none => .error name

def optD {α : Type} (m : Json.Members) (name : String) (default : α) (decode : Json → Option α) :
    Decoded α :=
  (opt m name decode).map (·.getD default)

def text (m : Json.Members) (name : String) : Decoded String := need m name Json.text?

def textD (m : Json.Members) (name default : String) : Decoded String :=
  optD m name default Json.text?

/-- A truth value that is false if it is not given. -/
def flag (m : Json.Members) (name : String) : Decoded Bool := optD m name false Json.bool?

def texts? : Json → Option (List String) := Json.list? Json.text?

def number? : Json → Option Nat := Json.natBelow? UInt64.size

end FleetRegistry.Script
