import FleetRegistry.Field.Path
import FleetRegistry.Json.Basic
import FleetRegistry.Text.Quoted

/-!
Violations of an object's rules, each at one field. A check never stops at the first violation: it
lists all of them, in the order of the fields it looks at.
-/
namespace FleetRegistry

inductive FieldFault where
  | required
  | invalid
  | forbidden
  /-- The value appears more than once where it must be unique. -/
  | duplicate
  | notSupported
  | tooLong
  deriving DecidableEq, Repr

def FieldFault.name : FieldFault → String
  | required => "Required"
  | invalid => "Invalid"
  | forbidden => "Forbidden"
  | duplicate => "Duplicate"
  | notSupported => "NotSupported"
  | tooLong => "TooLong"

def FieldFault.phrase : FieldFault → String
  | required => "Required value"
  | invalid => "Invalid value"
  | forbidden => "Forbidden"
  | duplicate => "Duplicate value"
  | notSupported => "Unsupported value"
  | tooLong => "Too long"

structure FieldError where
  fault : FieldFault
  field : String
  badValue : Option String
  detail : String
  deriving DecidableEq, Repr

namespace FieldError

def required (path : FieldPath) (detail : String) : FieldError :=
  ⟨.required, path.text, none, detail⟩

def invalid (path : FieldPath) (value detail : String) : FieldError :=
  ⟨.invalid, path.text, some value, detail⟩

def forbidden (path : FieldPath) (detail : String) : FieldError :=
  ⟨.forbidden, path.text, none, detail⟩

def duplicate (path : FieldPath) (value : String) : FieldError :=
  ⟨.duplicate, path.text, some value, ""⟩

/-- The detail lists the accepted values. -/
def notSupported (path : FieldPath) (value : String) (supported : List String) : FieldError :=
  ⟨.notSupported, path.text, some value, "supported values: " ++ Text.quoteAll supported⟩

/-- The detail gives the limit in bytes. -/
def tooLong (path : FieldPath) (limit : Nat) : FieldError :=
  ⟨.tooLong, path.text, none, "must have at most " ++ Nat.repr limit ++ " bytes"⟩

/-- Field, fault, quoted value and detail, as far as they are there. -/
def message (error : FieldError) : String :=
  (if error.field.isEmpty then "" else error.field ++ ": ")
    ++ error.fault.phrase
    ++ (match error.badValue with
      | some value => ": " ++ Text.quote value
      | none => "")
    ++ (if error.detail.isEmpty then "" else ": " ++ error.detail)

def toJson (error : FieldError) : Json := .obj [
  ("type", .str error.fault.name),
  ("field", .str error.field),
  ("badValue", (error.badValue.map Json.str).getD .null),
  ("detail", .str error.detail)]

end FieldError

abbrev FieldErrors := List FieldError

namespace FieldErrors

/-- Whether a violation concerns exactly this field. -/
def hasField (errors : FieldErrors) (field : String) : Bool := errors.any (·.field == field)

/-- One message as it is, several in brackets. -/
def message : FieldErrors → String
  | [] => ""
  | [error] => error.message
  | errors => "[" ++ ", ".intercalate (errors.map FieldError.message) ++ "]"

end FieldErrors

end FleetRegistry
