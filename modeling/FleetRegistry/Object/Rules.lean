import FleetRegistry.Field.Error
import FleetRegistry.Name.Rule
import FleetRegistry.Object.Meta
import FleetRegistry.Text.Lowercase

/-!
Rules for metadata: what a new object may carry, and what an update may change. Every check lists
all violations, in the order of the fields below.
-/
namespace FleetRegistry

/-- The finalizer of a deletion that leaves dependents alone. -/
def orphanFinalizer : String := "orphan"

/-- The finalizer of a deletion that waits for dependents. -/
def foregroundFinalizer : String := "foregroundDeletion"

def annotationsLimit : Nat := 256 * 1024

namespace ObjectMeta

abbrev NameCheck := List Char → List Name.Fault

def textErrors (check : NameCheck) (path : FieldPath) (text : String) : FieldErrors :=
  (check text.toList).map fun fault => .invalid path text fault.message

/-- Labels need qualified keys and label values. -/
def labelErrors (labels : StringMap) (path : FieldPath) : FieldErrors :=
  labels.entries.flatMap fun (key, value) =>
    textErrors Name.qualifiedFaults path key
      ++ textErrors Name.valueFaults (path.key key) value

def byteSize (map : StringMap) : Nat :=
  map.entries.foldr (fun entry size => entry.1.utf8ByteSize + entry.2.utf8ByteSize + size) 0

/-- Annotations need keys that are qualified names in lower case, and are limited in total size. -/
def annotationErrors (annotations : StringMap) (path : FieldPath) : FieldErrors :=
  annotations.entries.flatMap (fun (key, _) =>
    (Name.qualifiedFaults (Text.lowercase key).toList).map fun fault =>
      .invalid path key fault.message)
    ++ if byteSize annotations > annotationsLimit then [.tooLong path annotationsLimit] else []

/-- Finalizers need qualified names; the two finalizers of a deletion exclude each other. -/
def finalizerErrors (finalizers : List String) (path : FieldPath) : FieldErrors :=
  finalizers.zipIdx.flatMap (fun (finalizer, i) =>
    textErrors Name.qualifiedFaults (path.index i) finalizer)
    ++ if finalizers.contains orphanFinalizer && finalizers.contains foregroundFinalizer then
        [.invalid path (Text.quoteList finalizers)
          ("finalizer " ++ orphanFinalizer ++ " and " ++ foregroundFinalizer
            ++ " cannot be both set")]
      else []

/-- The name, or else something to generate it from. -/
def nameErrors (m : ObjectMeta) (check : NameCheck) (path : FieldPath) : FieldErrors :=
  if m.nameText.isEmpty then
    if (m.generateName.getD "").isEmpty then
      [.required (path.child "name") "name or generateName is required"]
    else []
  else textErrors check (path.child "name") m.nameText

/-- A base for names has to be valid once something follows it. -/
def generateNameErrors (m : ObjectMeta) (check : NameCheck) (path : FieldPath) : FieldErrors :=
  let base := m.generateName.getD ""
  if base.isEmpty then []
  else (check (base ++ "x").toList).map fun fault =>
    .invalid (path.child "generateName") base fault.message

/-- A namespace is required of namespaced kinds and refused to all others. -/
def namespaceErrors (m : ObjectMeta) (namespaced : Bool) (path : FieldPath) : FieldErrors :=
  match namespaced, m.namespaceText.isEmpty with
  | true, true => [.required (path.child "namespace") ""]
  | true, false => textErrors Name.labelFaults (path.child "namespace") m.namespaceText
  | false, true => []
  | false, false => [.forbidden (path.child "namespace") "not allowed on this type"]

def generationErrors (m : ObjectMeta) (path : FieldPath) : FieldErrors :=
  match m.generation with
  | none => []
  | some generation =>
    if generation < 0 then
      [.invalid (path.child "generation") (toString generation.toInt)
        "must be greater than or equal to 0"]
    else []

def errors (m : ObjectMeta) (namespaced : Bool) (check : NameCheck) (path : FieldPath) :
    FieldErrors :=
  m.nameErrors check path
    ++ m.generateNameErrors check path
    ++ m.namespaceErrors namespaced path
    ++ m.generationErrors path
    ++ (m.labels.map (labelErrors · (path.child "labels"))).getD []
    ++ (m.annotations.map (annotationErrors · (path.child "annotations"))).getD []
    ++ (m.finalizers.map (finalizerErrors · (path.child "finalizers"))).getD []

def fixedTextErrors (path : FieldPath) (new old : String) : FieldErrors :=
  if new = old then [] else [.invalid path new "field is immutable"]

/-- The violations of a change of metadata: name, namespace, identity and time of creation stay,
and a deletion that has begun is not taken back. -/
def updateErrors (new old : ObjectMeta) (path : FieldPath) : FieldErrors :=
  fixedTextErrors (path.child "name") new.nameText old.nameText
    ++ fixedTextErrors (path.child "namespace") new.namespaceText old.namespaceText
    ++ fixedTextErrors (path.child "uid") new.uidText old.uidText
    ++ (if new.creationTimestamp = old.creationTimestamp then []
        else [.invalid (path.child "creationTimestamp")
          ((new.creationTimestamp.map Instant.exactText).getD "") "field is immutable"])
    ++ if old.isDeleting && !new.isDeleting then
        [.forbidden (path.child "deletionTimestamp") "field cannot be unset once set"]
      else []

end ObjectMeta

end FleetRegistry
