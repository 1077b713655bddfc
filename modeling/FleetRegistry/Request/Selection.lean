import FleetRegistry.Error
import FleetRegistry.Object.Basic
import FleetRegistry.Request.Options
import FleetRegistry.Selector.Field
import FleetRegistry.Selector.Label

/-!
Which objects a request is about, and how many of them are wanted at once.
-/
namespace FleetRegistry

/-- Selectors, and the page of a list. -/
structure Selection where
  label : LabelSelector
  field : FieldSelector
  limit : Option Nat
  continueToken : Option String
  deriving DecidableEq

namespace Selection

def everything : Selection := ⟨.everything, .everything, none, none⟩

def selectors (label field : Option String) : Outcome (LabelSelector × FieldSelector) := do
  let label ← (LabelSelector.parseOptional label).mapError fun e => .badRequest (.selector e)
  let field ← (FieldSelector.parseOptional field).mapError fun e => .badRequest (.selector e)
  return (label, field)

/-- The selection of a list. A limit of zero and an empty token count as absent. -/
def ofListOptions (o : ListOptions) : Outcome Selection := do
  let (label, field) ← selectors o.labelSelector o.fieldSelector
  return ⟨label, field, o.limit.filter (· > 0), o.continueToken.filter (!·.isEmpty)⟩

def ofWatchOptions (o : WatchOptions) : Outcome Selection := do
  let (label, field) ← selectors o.labelSelector o.fieldSelector
  return ⟨label, field, none, none⟩

def isEverything (s : Selection) : Bool :=
  s.label.requirements.isEmpty && s.field.requirements.isEmpty

/-- The same selectors, all objects at once. -/
def unpaged (s : Selection) : Selection := { s with limit := none, continueToken := none }

def selects {k : Kind} (s : Selection) (o : Object k) : Bool :=
  s.label.holds o.attributes.labels && s.field.holds o.attributes.fields

/-- A selection without requirements selects every object. -/
theorem selects_of_isEverything {k : Kind} {s : Selection} (all : s.isEverything) (o : Object k) :
    s.selects o = true := by
  simp only [isEverything, Bool.and_eq_true, List.isEmpty_iff] at all
  simp [selects, LabelSelector.holds, FieldSelector.holds, all]

end Selection

def Preconditions.conflict? {k : Kind} (p : Preconditions) (o : Object k) :
    Option RegistryError :=
  match p.uid with
  | some uid =>
    if uid = o.metadata.uidText then versionConflict?
    else some (.conflict k.qualified o.anyName
      ("Precondition failed: UID in precondition: " ++ uid
        ++ ", UID in object meta: " ++ o.metadata.uidText))
  | none => versionConflict?
where
  versionConflict? : Option RegistryError :=
    match p.resourceVersion with
    | some version =>
      if version = o.metadata.versionText then none
      else some (.conflict k.qualified o.anyName
        ("Precondition failed: ResourceVersion in precondition: " ++ version
          ++ ", ResourceVersion in object meta: " ++ o.metadata.versionText))
    | none => none

def checkPreconditions {k : Kind} (p : Option Preconditions) (o : Object k) : Outcome Unit :=
  match p.bind (·.conflict? o) with
  | some error => .error error
  | none => .ok ()

end FleetRegistry
