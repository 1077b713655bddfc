import FleetRegistry.Json.Decode
import FleetRegistry.Patch.Apply

/-!
Options of requests, and the parts of answers that go with them. Options that are absent are left
out when they are written; a dry run is always written.
-/
namespace FleetRegistry

/-- Whole numbers below this bound fit into an option. -/
def optionLimit : Nat := UInt32.size

structure ListOptions where
  labelSelector : Option String := none
  fieldSelector : Option String := none
  resourceVersion : Option String := none
  limit : Option Nat := none
  continueToken : Option String := none
  deriving DecidableEq

structure WatchOptions where
  labelSelector : Option String := none
  fieldSelector : Option String := none
  resourceVersion : Option String := none
  timeoutSeconds : Option Nat := none
  deriving DecidableEq

/-- Options of a write: whether it is only tried, and in whose name. -/
structure WriteOptions where
  dryRun : Bool := false
  fieldManager : Option String := none
  deriving DecidableEq

inductive PropagationPolicy where
  /-- They stay. -/
  | orphan
  /-- They are collected after the object is gone. -/
  | background
  /-- The object waits until they are gone. -/
  | foreground
  deriving DecidableEq, Repr

/-- What has to hold of an object that is deleted. -/
structure Preconditions where
  uid : Option String := none
  resourceVersion : Option String := none
  deriving DecidableEq

structure DeleteOptions where
  dryRun : Bool := false
  gracePeriodSeconds : Option Nat := none
  propagationPolicy : Option PropagationPolicy := none
  preconditions : Option Preconditions := none
  deriving DecidableEq

/-- A truth value that is false if it is absent; null is refused. -/
def dryRunField (members : Json.Members) : Option Bool :=
  match members.find? "dryRun" with
  | none => some false
  | some value => Json.bool? value

def optionNumber? : Json → Option Nat := Json.natBelow? optionLimit

namespace ListOptions

def toJson (o : ListOptions) : Json := .ofFields [
  ("labelSelector", o.labelSelector.map .str),
  ("fieldSelector", o.fieldSelector.map .str),
  ("resourceVersion", o.resourceVersion.map .str),
  ("limit", o.limit.map fun n => .int n),
  ("continue", o.continueToken.map .str)]

def ofJson? (value : Json) : Option ListOptions := do
  let m ← value.members?
  return {
    labelSelector := ← Json.optionalField Json.text? "labelSelector" m
    fieldSelector := ← Json.optionalField Json.text? "fieldSelector" m
    resourceVersion := ← Json.optionalField Json.text? "resourceVersion" m
    limit := ← Json.optionalField optionNumber? "limit" m
    continueToken := ← Json.optionalField Json.text? "continue" m }

end ListOptions

namespace WatchOptions

def toJson (o : WatchOptions) : Json := .ofFields [
  ("labelSelector", o.labelSelector.map .str),
  ("fieldSelector", o.fieldSelector.map .str),
  ("resourceVersion", o.resourceVersion.map .str),
  ("timeoutSeconds", o.timeoutSeconds.map fun n => .int n)]

def ofJson? (value : Json) : Option WatchOptions := do
  let m ← value.members?
  return {
    labelSelector := ← Json.optionalField Json.text? "labelSelector" m
    fieldSelector := ← Json.optionalField Json.text? "fieldSelector" m
    resourceVersion := ← Json.optionalField Json.text? "resourceVersion" m
    timeoutSeconds := ← Json.optionalField optionNumber? "timeoutSeconds" m }

end WatchOptions

namespace WriteOptions

def toJson (o : WriteOptions) : Json := .ofFields [
  ("dryRun", some (.bool o.dryRun)),
  ("fieldManager", o.fieldManager.map .str)]

def ofJson? (value : Json) : Option WriteOptions := do
  let m ← value.members?
  return {
    dryRun := ← dryRunField m
    fieldManager := ← Json.optionalField Json.text? "fieldManager" m }

end WriteOptions

namespace PropagationPolicy

def name : PropagationPolicy → String
  | orphan => "Orphan"
  | background => "Background"
  | foreground => "Foreground"

def ofName? (name : String) : Option PropagationPolicy :=
  if name = "Orphan" then some .orphan
  else if name = "Background" then some .background
  else if name = "Foreground" then some .foreground
  else none

@[simp] theorem ofName?_name (policy : PropagationPolicy) : ofName? policy.name = some policy := by
  cases policy <;> rfl

end PropagationPolicy

namespace Preconditions

def toJson (p : Preconditions) : Json := .ofFields [
  ("uid", p.uid.map .str),
  ("resourceVersion", p.resourceVersion.map .str)]

def ofJson? (value : Json) : Option Preconditions := do
  let m ← value.members?
  return {
    uid := ← Json.optionalField Json.text? "uid" m
    resourceVersion := ← Json.optionalField Json.text? "resourceVersion" m }

end Preconditions

namespace DeleteOptions

def toJson (o : DeleteOptions) : Json := .ofFields [
  ("dryRun", some (.bool o.dryRun)),
  ("gracePeriodSeconds", o.gracePeriodSeconds.map fun n => .int n),
  ("propagationPolicy", o.propagationPolicy.map fun p => .str p.name),
  ("preconditions", o.preconditions.map Preconditions.toJson)]

def ofJson? (value : Json) : Option DeleteOptions := do
  let m ← value.members?
  return {
    dryRun := ← dryRunField m
    gracePeriodSeconds := ← Json.optionalField optionNumber? "gracePeriodSeconds" m
    propagationPolicy := ← Json.optionalField
      (fun value => value.text?.bind PropagationPolicy.ofName?) "propagationPolicy" m
    preconditions := ← Json.optionalField Preconditions.ofJson? "preconditions" m }

end DeleteOptions

def PatchType.ofJson? (value : Json) : Option PatchType := value.text?.bind PatchType.ofName?

end FleetRegistry
