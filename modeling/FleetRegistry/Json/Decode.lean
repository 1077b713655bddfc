import FleetRegistry.Collection.StringMap
import FleetRegistry.Json.Basic

/-!
Decoding JSON values into types. A decoder gives nothing where the value has another shape. An
absent member and a null member are the same to an optional field; names that no field asks for
are ignored. Some records may be written without names, as a list of all their values.
-/
namespace FleetRegistry.Json

/-- The members of a record that is an object, or a list with one item for each of its names. -/
def record? (names : List String) : Json → Option Members
  | .obj members => some members
  | .arr items => if items.length = names.length then some (names.zip items) else none
  | _ => none

/-- A value that is there only if the member is there and is not null. -/
def optionalField {α : Type} (decode : Json → Option α) (name : String) (members : Members) :
    Option (Option α) :=
  match members.find? name with
  | none => some none
  | some .null => some none
  | some value => (decode value).map some

/-- A value that has to be there. -/
def requiredField {α : Type} (decode : Json → Option α) (name : String) (members : Members) :
    Option α :=
  (members.find? name).bind decode

/-- A value with a default for an absent or null member. -/
def defaultedField {α : Type} (default : α) (decode : Json → Option α) (name : String)
    (members : Members) : Option α :=
  (optionalField decode name members).map (·.getD default)

def list? {α : Type} (decode : Json → Option α) (value : Json) : Option (List α) :=
  value.items?.bind (·.mapM decode)

def bool? : Json → Option Bool
  | .bool value => some value
  | _ => none

def int64? : Json → Option Int64
  | .int value =>
    if Int64.minValue.toInt ≤ value ∧ value ≤ Int64.maxValue.toInt then some (Int64.ofInt value)
    else none
  | _ => none

def int32? : Json → Option Int32
  | .int value =>
    if Int32.minValue.toInt ≤ value ∧ value ≤ Int32.maxValue.toInt then some (Int32.ofInt value)
    else none
  | _ => none

def natBelow? (limit : Nat) : Json → Option Nat
  | .int value => if 0 ≤ value ∧ value < limit then some value.toNat else none
  | _ => none

def stringMap? (value : Json) : Option StringMap := do
  let members ← value.members?
  let entries ← members.mapM fun member => member.2.text?.map (member.1, ·)
  return StringMap.ofList entries

def ofStringMap (map : StringMap) : Json :=
  .obj (map.entries.map fun entry => (entry.1, .str entry.2))

def ofInt64 (value : Int64) : Json := .int value.toInt

def ofInt32 (value : Int32) : Json := .int value.toInt

def ofStrings (texts : List String) : Json := .arr (texts.map .str)

@[simp] theorem int64?_ofInt64 (value : Int64) : int64? (ofInt64 value) = some value := by
  have low := Int64.minValue_le_toInt value
  have high := Int64.toInt_le value
  simp only [int64?, ofInt64, low, high, and_self, if_true, Int64.ofInt_toInt]

@[simp] theorem int32?_ofInt32 (value : Int32) : int32? (ofInt32 value) = some value := by
  have low := Int32.minValue_le_toInt value
  have high := Int32.toInt_le value
  simp only [int32?, ofInt32, low, high, and_self, if_true, Int32.ofInt_toInt]

/-- Decoding the written items gives what is kept of each item. -/
theorem list?_arr {α : Type} {encode : α → Json} {decode : Json → Option α} {kept : α → α}
    (read : ∀ a, decode (encode a) = some (kept a)) (items : List α) :
    list? decode (.arr (items.map encode)) = some (items.map kept) := by
  have : (items.map encode).mapM decode = some (items.map kept) := by
    induction items with
    | nil => rfl
    | cons item rest ih => simp [List.mapM_cons, read, ih]
  simpa [list?, items?] using this

@[simp] theorem stringMap?_ofStringMap (map : StringMap) :
    stringMap? (ofStringMap map) = some map := by
  have read : ∀ entries : List (String × String),
      (entries.map fun entry => (entry.1, Json.str entry.2)).mapM
        (fun member => member.2.text?.map (member.1, ·)) = some entries := by
    intro entries
    induction entries with
    | nil => rfl
    | cons entry rest ih => simp_all [List.mapM_cons, text?]
  simp [stringMap?, ofStringMap, members?, read]

end FleetRegistry.Json
