import FleetRegistry.Object.Kind

/-!
Objects of the registry: metadata, a declared side and an observed side. The written form names the
kind in front; reading does not look at that name.
-/
namespace FleetRegistry

structure Object (k : Kind) where
  metadata : ObjectMeta
  spec : k.Spec
  status : Option k.Status
  deriving DecidableEq

namespace Object

variable {k : Kind}

def empty (k : Kind) : Object k := ⟨{ name := some "" }, k.emptySpec, none⟩

/-- The name, or what it is to be generated from, or nothing. -/
def anyName (o : Object k) : String := o.metadata.anyName

def mapMeta (f : ObjectMeta → ObjectMeta) (o : Object k) : Object k :=
  { o with metadata := f o.metadata }

def withVersion (revision : Nat) (o : Object k) : Object k :=
  o.mapMeta fun m => { m with resourceVersion := some (Nat.repr revision) }

/-- The violations of an object as a new one: those of its metadata and of its declared side. -/
def errors (o : Object k) : FieldErrors :=
  o.metadata.errors k.namespaced k.nameCheck (.ofField "metadata")
    ++ k.specErrors o.spec (.ofField "spec")

def statusErrors (o : Object k) (path : FieldPath) : FieldErrors :=
  (o.status.map fun status => k.statusErrors status path).getD []

def toJson (o : Object k) : Json := .ofFields [
  ("apiVersion", some (.str k.apiVersion)),
  ("kind", some (.str k.name)),
  ("metadata", some o.metadata.toJson),
  ("spec", some (k.specToJson o.spec)),
  ("status", o.status.map k.statusToJson)]

def ofJson? (k : Kind) (value : Json) : Option (Object k) := do
  let m ← value.record? ["metadata", "spec", "status"]
  return {
    metadata := ← Json.requiredField ObjectMeta.ofJson? "metadata" m
    spec := ← Json.requiredField k.specOfJson? "spec" m
    status := ← Json.optionalField k.statusOfJson? "status" m }

/-- What selectors can look at: labels, and the fields by which objects can be selected. -/
structure Attributes where
  labels : StringMap
  fields : StringMap
  deriving DecidableEq

/-- The labels of an object, its name, and its namespace where it has one. -/
def attributes (o : Object k) : Attributes where
  labels := o.metadata.labelMap
  fields := .ofList <| ("metadata.name", o.anyName) ::
    if k.namespaced then [("metadata.namespace", o.metadata.namespaceText)] else []

end Object

end FleetRegistry
