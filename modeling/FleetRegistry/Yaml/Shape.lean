import FleetRegistry.Json.Basic
import FleetRegistry.Yaml.Node
import FleetRegistry.Yaml.Plain

/-!
What the content of a YAML text means as a value. Without a shape, plain words mean what they look
like. With a shape, the reader knows where a text, a number or a list belongs: a text is taken as it
is written, so that a version may be given as 42 and a name as true.
-/
namespace FleetRegistry.Yaml

/-- The value that a plain word means on its own. Integers beyond 64 bits mean none. -/
def plainJson? (word : String) : Option Json :=
  match plainValue word with
  | .null => some .null
  | .bool value => some (.bool value)
  | .int value =>
    if Int64.minValue.toInt ≤ value ∧ value < UInt64.size then some (.int value) else none
  | .float value => some (.float value)
  | .nonFinite => some .null
  | .text => some (.str word)

namespace Node

mutual

def toJson? : Node → Option Json
  | scalar true word => plainJson? word
  | scalar false text => some (.str text)
  | sequence items => (itemsJson? items).map .arr
  | mapping entries => (entriesJson? entries).map .obj

def itemsJson? : List Node → Option (List Json)
  | [] => some []
  | item :: rest => do return (← toJson? item) :: (← itemsJson? rest)

def entriesJson? : List (String × Node) → Option Json.Members
  | [] => some []
  | (name, value) :: rest => do return (name, ← toJson? value) :: (← entriesJson? rest)

end

def isNull : Node → Bool
  | scalar true word => word ∈ nullWords
  | _ => false

end Node

inductive Shape where
  /-- Any value, as it is without a shape. -/
  | any
  | text
  | int
  | bool
  | list (item : Shape)
  /-- Texts under any names. -/
  | texts
  /-- Values under known names; other names are passed over. Where names may repeat, the last
  counts; where they may not, all values may be listed without names. -/
  | record (mayRepeat : Bool) (fields : List (String × Bool × Shape))

namespace Shape

def optional (name : String) (shape : Shape) : String × Bool × Shape := (name, true, shape)

def required (name : String) (shape : Shape) : String × Bool × Shape := (name, false, shape)

/-- The value of a scalar. An empty one may stand for an empty list or record. -/
def ofScalar? (isPlain : Bool) (word : String) : Shape → Option Json
  | any => Node.toJson? (.scalar isPlain word)
  | text => some (.str word)
  | int =>
    match isPlain, plainValue word with
    | true, .int value => some (.int value)
    | _, _ => none
  | bool =>
    match isPlain, plainValue word with
    | true, .bool value => some (.bool value)
    | _, _ => none
  | list _ => if isPlain && word.isEmpty then some (.arr []) else none
  | texts | record _ _ => if isPlain && word.isEmpty then some (.obj []) else none

/-- Scalars under names as texts. -/
def textMembers? (entries : List (String × Node)) : Option Json.Members :=
  entries.mapM fun entry => entry.2.text?.map fun text => (entry.1, .str text)

mutual

def read? : Node → Shape → Option Json
  | .scalar isPlain word, shape => ofScalar? isPlain word shape
  | node, any => node.toJson?
  | .sequence items, list item => (readItems? items item).map .arr
  | .sequence items, record false fields => (readRow? items fields).map .arr
  | .mapping entries, texts => (textMembers? entries).map .obj
  | .mapping entries, record mayRepeat fields => (readFields? entries mayRepeat fields).map .obj
  | _, _ => none

def readItems? : List Node → Shape → Option (List Json)
  | [], _ => some []
  | item :: rest, shape => do return (← read? item shape) :: (← readItems? rest shape)

def readFields? : List (String × Node) → Bool → List (String × Bool × Shape) → Option Json.Members
  | [], _, _ => some []
  | (name, value) :: rest, mayRepeat, fields =>
    match fields.lookup name with
    | none => readFields? rest mayRepeat fields
    | some (isOptional, shape) => do
      let others ← readFields? rest mayRepeat fields
      let own ← if isOptional && value.isNull then some .null else read? value shape
      if Json.Members.has name others && !mayRepeat then none else return (name, own) :: others

def readRow? : List Node → List (String × Bool × Shape) → Option (List Json)
  | [], [] => some []
  | value :: rest, (_, isOptional, shape) :: fields => do
    let own ← if isOptional && value.isNull then some .null else read? value shape
    return own :: (← readRow? rest fields)
  | _, _ => none

end

end Shape

def json? (text : String) : Option Json := ((parse? text).bind Node.toJson?).map Json.canonical

def shapedJson? (shape : Shape) (text : String) : Option Json :=
  ((parse? text).bind fun node => shape.read? node).map Json.canonical

end FleetRegistry.Yaml
