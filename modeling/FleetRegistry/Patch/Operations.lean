import FleetRegistry.Json.Decode
import FleetRegistry.Json.Pointer
import FleetRegistry.Patch.Error

/-!
Patches as lists of operations, applied one after the other. Each operation adds, removes, replaces,
moves, copies or tests one part of the document; the first failure ends the patch.
-/
namespace FleetRegistry.Patch

inductive Action where
  | add (value : Json)
  | remove
  | replace (value : Json)
  | move (source : Json.Pointer)
  | copy (source : Json.Pointer)
  | test (value : Json)

structure Operation where
  action : Action
  path : Json.Pointer

namespace Operation

/-- The names of what an operation is about, in the order in which it stands without them. -/
def partNames? (name : String) : Option (List String) :=
  if name = "add" ∨ name = "replace" ∨ name = "test" then some ["path", "value"]
  else if name = "remove" then some ["path"]
  else if name = "move" ∨ name = "copy" then some ["from", "path"]
  else none

/-- The members of an operation that is an object, or a list with the name of the operation in
front. -/
def members? : Json → Option Json.Members
  | .obj members => some members
  | .arr (.str name :: parts) => do
    let members ← (Json.arr parts).record? (← partNames? name)
    return ("op", .str name) :: members
  | _ => none

def pointer? (name : String) (members : Json.Members) : Option Json.Pointer :=
  (Json.requiredField Json.text? name members).bind Json.Pointer.parse?

def action? (members : Json.Members) : Option Action := do
  let name ← Json.requiredField Json.text? "op" members
  if name = "add" then return .add (← members.find? "value")
  else if name = "remove" then return .remove
  else if name = "replace" then return .replace (← members.find? "value")
  else if name = "move" then return .move (← pointer? "from" members)
  else if name = "copy" then return .copy (← pointer? "from" members)
  else if name = "test" then return .test (← members.find? "value")
  else none

def ofJson? (value : Json) : Option Operation := do
  let members ← members? value
  return {
    action := ← action? members
    path := ← pointer? "path" members }

def parts (operation : Operation) : String × Option Json.Pointer × Option Json :=
  match operation.action with
  | .add value => ("add", none, some value)
  | .remove => ("remove", none, none)
  | .replace value => ("replace", none, some value)
  | .move source => ("move", some source, none)
  | .copy source => ("copy", some source, none)
  | .test value => ("test", none, some value)

def toJson (operation : Operation) : Json :=
  let (name, source, value) := operation.parts
  .ofFields [
    ("op", some (.str name)),
    ("from", source.map fun source => .str source.text),
    ("path", some (.str operation.path.text)),
    ("value", value)]

end Operation

/-- Puts a value into an object or a list: under a name, in front of a position, or at the end. -/
def insertStep? (step : String) (value : Json) : Json → Option Json
  | .obj members => some (.obj (Json.Members.set step value members))
  | .arr items =>
    if step = "-" then some (.arr (items ++ [value]))
    else match Json.Pointer.position? step with
      | some i => if i ≤ items.length then some (.arr (items.insertIdx i value)) else none
      | none => none
  | _ => none

def eraseStep? (step : String) : Json → Option Json
  | .obj members =>
    if Json.Members.has step members then some (.obj (Json.Members.erase step members)) else none
  | .arr items =>
    match Json.Pointer.position? step with
    | some i => if i < items.length then some (.arr (items.eraseIdx i)) else none
    | none => none
  | _ => none

/-- The document with a value put at a path. The empty path stands for the whole document. -/
def add? (path : Json.Pointer) (value doc : Json) : Option Json :=
  match path.getLast? with
  | none => some value
  | some step => Json.Pointer.modify? (insertStep? step value) doc path.dropLast

/-- The document without the part at a path. The whole document cannot be removed. -/
def remove? (path : Json.Pointer) (doc : Json) : Option Json :=
  match path.getLast? with
  | none => none
  | some step => Json.Pointer.modify? (eraseStep? step) doc path.dropLast

/-- Moves a part. A part cannot be moved into itself, and it is taken out before it is put in. -/
def move (source path : Json.Pointer) (doc : Json) : Except OperationFault Json :=
  if source.isPrefixOf path && source.length < path.length then .error .intoItself
  else match Json.Pointer.find? doc source, remove? source doc with
    | some value, some rest =>
      match add? path value rest with
      | some result => .ok result
      | none => .error .noSuchPath
    | _, _ => .error .noSuchSource

def copy (source path : Json.Pointer) (doc : Json) : Except OperationFault Json :=
  match Json.Pointer.find? doc source with
  | none => .error .noSuchSource
  | some value =>
    match add? path value doc with
    | some result => .ok result
    | none => .error .noSuchPath

/-- The result, or the fault of a path that leads nowhere. -/
def orNoPath (result : Option Json) : Except OperationFault Json :=
  match result with
  | some doc => .ok doc
  | none => .error .noSuchPath

def Operation.apply (operation : Operation) (doc : Json) : Except OperationFault Json :=
  match operation.action with
  | .add value => orNoPath (add? operation.path value doc)
  | .remove => orNoPath (remove? operation.path doc)
  | .replace value => orNoPath (Json.Pointer.modify? (fun _ => some value) doc operation.path)
  | .move source => move source operation.path doc
  | .copy source => copy source operation.path doc
  | .test value =>
    match Json.Pointer.find? doc operation.path with
    | none => .error .noSuchPath
    | some found => if found.same value then .ok doc else .error .valueDiffers

/-- Applies operations in order, counting from a position. -/
def applyFrom (position : Nat) (doc : Json) : List Operation → Except PatchError Json
  | [] => .ok doc
  | operation :: rest =>
    match operation.apply doc with
    | .error fault => .error (.failed position operation.path.text fault)
    | .ok changed => applyFrom (position + 1) changed rest

def operations (patch : Json) : Except PatchError (List Operation) :=
  match Json.list? Operation.ofJson? patch with
  | some operations => .ok operations
  | none => .error .malformedOperations

end FleetRegistry.Patch
