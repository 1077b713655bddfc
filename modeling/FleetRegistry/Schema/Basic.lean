import FleetRegistry.Json.Basic
import FleetRegistry.Schema.Pattern

/-!
Schemas: what shape a value may have, in the written form that is published, and as a test of
values.
-/
namespace FleetRegistry

structure SchemaNote where
  description : Option String := none
  nullable : Bool := false

inductive Schema where
  | text (note : SchemaNote) (minLength : Option Nat) (pattern : Option Schema.Pattern)
  | integer (note : SchemaNote) (format : String) (minimum maximum : Option Int)
  | list (note : SchemaNote) (items : Schema)
  | record (note : SchemaNote) (properties : List (String × Schema)) (required : List String)

namespace Schema

/-- A whole number written with a point. -/
def bound (n : Int) : Json := .float (Number.Binary64.ofFloat (Float.ofInt n))

def noteFields (note : SchemaNote) : List (String × Option Json) := [
  ("description", note.description.map .str),
  ("nullable", if note.nullable then some (.bool true) else none)]

/-- The written form of a pattern: the whole text has to match. -/
def patternText (p : Pattern) : String := String.ofList ('^' :: p.text ++ ['$'])

mutual

def toJson : Schema → Json
  | text note minLength pattern => .ofFields (noteFields note ++ [
    ("minLength", minLength.map fun n => .int n),
    ("pattern", pattern.map fun p => .str (patternText p)),
    ("type", some (.str "string"))])
  | integer note format minimum maximum => .ofFields (noteFields note ++ [
    ("format", some (.str format)),
    ("maximum", maximum.map bound),
    ("minimum", minimum.map bound),
    ("type", some (.str "integer"))])
  | list note items => .ofFields (noteFields note ++ [
    ("items", some items.toJson),
    ("type", some (.str "array"))])
  | record note properties required => .ofFields (noteFields note ++ [
    ("properties", some (.obj (propertiesToJson properties))),
    ("required",
      if required.isEmpty then none else some (.arr (required.map .str))),
    ("type", some (.str "object"))])

def propertiesToJson : List (String × Schema) → List (String × Json)
  | [] => []
  | (name, schema) :: rest => (name, schema.toJson) :: propertiesToJson rest

end

def note : Schema → SchemaNote
  | text note .. => note
  | integer note .. => note
  | list note _ => note
  | record note .. => note

mutual

/-- Whether a value has the shape of a schema. Members that the schema does not name are free. -/
def accepts : Schema → Json → Bool
  | text note minLength pattern, value =>
    match value with
    | .str s => minLength.all (· ≤ s.length) && pattern.all (·.holds s.toList)
    | .null => note.nullable
    | _ => false
  | integer note _ minimum maximum, value =>
    match value with
    | .int n => minimum.all (· ≤ n) && maximum.all (n ≤ ·)
    | .null => note.nullable
    | _ => false
  | list note items, value =>
    match value with
    | .arr values => values.all items.accepts
    | .null => note.nullable
    | _ => false
  | record note properties required, value =>
    match value with
    | .obj members =>
      required.all (fun name => Json.Members.has name members)
        && acceptsProperties properties members
    | .null => note.nullable
    | _ => false

def acceptsProperties : List (String × Schema) → Json.Members → Bool
  | [], _ => true
  | (name, schema) :: rest, members =>
    (match members.find? name with
      | none => true
      | some value => schema.accepts value) && acceptsProperties rest members

end

end Schema

end FleetRegistry
