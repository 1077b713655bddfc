import FleetRegistry.Object.Basic

/-!
What requests are answered with.
-/
namespace FleetRegistry

/-- One page of a list: objects, the version it was read at, and where the next page begins. -/
structure Page (k : Kind) where
  items : List (Object k) := []
  resourceVersion : Option String := none
  continueToken : Option String := none

def Json.ofText? (text : Option String) : Json := (text.map Json.str).getD .null

def Page.toJson {k : Kind} (page : Page k) : Json := .obj [
  ("items", .arr (page.items.map Object.toJson)),
  ("resourceVersion", .ofText? page.resourceVersion),
  ("continue", .ofText? page.continueToken)]

inductive WatchEvent (k : Kind) where
  | added (object : Object k)
  | modified (object : Object k)
  | deleted (object : Object k)
  /-- Nothing happened up to this version. -/
  | bookmark (version : String)

namespace WatchEvent

def name {k : Kind} : WatchEvent k → String
  | added _ => "Added"
  | modified _ => "Modified"
  | deleted _ => "Deleted"
  | bookmark _ => "Bookmark"

def object? {k : Kind} : WatchEvent k → Option (Object k)
  | added object => some object
  | modified object => some object
  | deleted object => some object
  | bookmark _ => none

def toJson {k : Kind} (event : WatchEvent k) : Json :=
  match event with
  | added object | modified object | deleted object =>
    .obj [("type", .str event.name), ("object", object.toJson)]
  | bookmark version => .obj [("type", .str event.name), ("resourceVersion", .str version)]

end WatchEvent

inductive Deletion (k : Kind) where
  /-- It is gone. -/
  | deleted
  /-- It is marked, and waits until its finalizers are removed. -/
  | pending (object : Object k)

def Deletion.toJson {k : Kind} : Deletion k → Json
  | deleted => .obj [("outcome", .str "Deleted")]
  | pending object => .obj [("outcome", .str "Pending"), ("object", object.toJson)]

end FleetRegistry
