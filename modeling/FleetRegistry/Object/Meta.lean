import FleetRegistry.Collection.StringMap
import FleetRegistry.Json.Canonical
import FleetRegistry.Json.Decode
import FleetRegistry.Time.Instant

/-!
Metadata that every object carries: its name and place, its identity and version, labels and
annotations, who manages which fields, and the marks of a deletion in progress.
-/
namespace FleetRegistry

structure OwnerReference where
  apiVersion : String
  blockOwnerDeletion : Option Bool
  controller : Option Bool
  kind : String
  name : String
  uid : String
  deriving DecidableEq, Inhabited

/-- A set of fields in writing, which is kept as it is. It may be null, but it is not read back from
there: a member that is null stands for no set. Sets are the same if they are written alike, so that
zeros of either sign are told apart. -/
structure FieldSet where
  value : Json
  canonical : value.canonical = value
  deriving DecidableEq

/-- A note on the fields that one manager has last written. -/
structure ManagedFields where
  apiVersion : Option String := none
  fieldsType : Option String := none
  fieldsV1 : Option FieldSet := none
  manager : Option String := none
  operation : Option String := none
  subresource : Option String := none
  time : Option Instant := none
  deriving DecidableEq, Inhabited

/-- The metadata of an object. A missing part and an empty part are different values. -/
structure ObjectMeta where
  annotations : Option StringMap := none
  creationTimestamp : Option Instant := none
  deletionGracePeriodSeconds : Option Int64 := none
  deletionTimestamp : Option Instant := none
  finalizers : Option (List String) := none
  generateName : Option String := none
  generation : Option Int64 := none
  labels : Option StringMap := none
  managedFields : Option (List ManagedFields) := none
  name : Option String := none
  ns : Option String := none
  ownerReferences : Option (List OwnerReference) := none
  resourceVersion : Option String := none
  selfLink : Option String := none
  uid : Option String := none
  deriving DecidableEq, Inhabited

namespace ObjectMeta

/-- The name, or what it is to be generated from, or nothing. -/
def anyName (m : ObjectMeta) : String := (m.name <|> m.generateName).getD ""

def nameText (m : ObjectMeta) : String := m.name.getD ""

def namespaceText (m : ObjectMeta) : String := m.ns.getD ""

def versionText (m : ObjectMeta) : String := m.resourceVersion.getD ""

def uidText (m : ObjectMeta) : String := m.uid.getD ""

def labelMap (m : ObjectMeta) : StringMap := m.labels.getD StringMap.empty

def finalizerList (m : ObjectMeta) : List String := m.finalizers.getD []

/-- Whether a deletion has begun. -/
def isDeleting (m : ObjectMeta) : Bool := m.deletionTimestamp.isSome

end ObjectMeta

namespace OwnerReference

def toJson (r : OwnerReference) : Json := .ofFields [
  ("apiVersion", some (.str r.apiVersion)),
  ("blockOwnerDeletion", r.blockOwnerDeletion.map .bool),
  ("controller", r.controller.map .bool),
  ("kind", some (.str r.kind)),
  ("name", some (.str r.name)),
  ("uid", some (.str r.uid))]

def ofJson? (value : Json) : Option OwnerReference := do
  let m ← value.members?
  return {
    apiVersion := ← Json.defaultedField "" Json.text? "apiVersion" m
    blockOwnerDeletion := ← Json.optionalField Json.bool? "blockOwnerDeletion" m
    controller := ← Json.optionalField Json.bool? "controller" m
    kind := ← Json.defaultedField "" Json.text? "kind" m
    name := ← Json.defaultedField "" Json.text? "name" m
    uid := ← Json.defaultedField "" Json.text? "uid" m }

end OwnerReference

def Instant.toJson (instant : Instant) : Json := .str instant.text

def Instant.ofJson? (value : Json) : Option Instant := value.text?.bind Instant.parse?

def FieldSet.ofJson (value : Json) : FieldSet := ⟨value.canonical, value.canonical_canonical⟩

namespace ManagedFields

def toJson (f : ManagedFields) : Json := .ofFields [
  ("apiVersion", f.apiVersion.map .str),
  ("fieldsType", f.fieldsType.map .str),
  ("fieldsV1", f.fieldsV1.map FieldSet.value),
  ("manager", f.manager.map .str),
  ("operation", f.operation.map .str),
  ("subresource", f.subresource.map .str),
  ("time", f.time.map Instant.toJson)]

def ofJson? (value : Json) : Option ManagedFields := do
  let m ← value.members?
  return {
    apiVersion := ← Json.optionalField Json.text? "apiVersion" m
    fieldsType := ← Json.optionalField Json.text? "fieldsType" m
    fieldsV1 := ← Json.optionalField (some ∘ FieldSet.ofJson) "fieldsV1" m
    manager := ← Json.optionalField Json.text? "manager" m
    operation := ← Json.optionalField Json.text? "operation" m
    subresource := ← Json.optionalField Json.text? "subresource" m
    time := ← Json.optionalField Instant.ofJson? "time" m }

end ManagedFields

namespace ObjectMeta

/-- Fields in alphabetical order; missing parts are left out. -/
def toJson (m : ObjectMeta) : Json := .ofFields [
  ("annotations", m.annotations.map .ofStringMap),
  ("creationTimestamp", m.creationTimestamp.map Instant.toJson),
  ("deletionGracePeriodSeconds", m.deletionGracePeriodSeconds.map .ofInt64),
  ("deletionTimestamp", m.deletionTimestamp.map Instant.toJson),
  ("finalizers", m.finalizers.map .ofStrings),
  ("generateName", m.generateName.map .str),
  ("generation", m.generation.map .ofInt64),
  ("labels", m.labels.map .ofStringMap),
  ("managedFields", m.managedFields.map fun fs => .arr (fs.map ManagedFields.toJson)),
  ("name", m.name.map .str),
  ("namespace", m.ns.map .str),
  ("ownerReferences", m.ownerReferences.map fun rs => .arr (rs.map OwnerReference.toJson)),
  ("resourceVersion", m.resourceVersion.map .str),
  ("selfLink", m.selfLink.map .str),
  ("uid", m.uid.map .str)]

def ofJson? (value : Json) : Option ObjectMeta := do
  let m ← value.members?
  return {
    annotations := ← Json.optionalField Json.stringMap? "annotations" m
    creationTimestamp := ← Json.optionalField Instant.ofJson? "creationTimestamp" m
    deletionGracePeriodSeconds :=
      ← Json.optionalField Json.int64? "deletionGracePeriodSeconds" m
    deletionTimestamp := ← Json.optionalField Instant.ofJson? "deletionTimestamp" m
    finalizers := ← Json.optionalField (Json.list? Json.text?) "finalizers" m
    generateName := ← Json.optionalField Json.text? "generateName" m
    generation := ← Json.optionalField Json.int64? "generation" m
    labels := ← Json.optionalField Json.stringMap? "labels" m
    managedFields := ← Json.optionalField (Json.list? ManagedFields.ofJson?) "managedFields" m
    name := ← Json.optionalField Json.text? "name" m
    ns := ← Json.optionalField Json.text? "namespace" m
    ownerReferences := ← Json.optionalField (Json.list? OwnerReference.ofJson?) "ownerReferences" m
    resourceVersion := ← Json.optionalField Json.text? "resourceVersion" m
    selfLink := ← Json.optionalField Json.text? "selfLink" m
    uid := ← Json.optionalField Json.text? "uid" m }

end ObjectMeta

end FleetRegistry
