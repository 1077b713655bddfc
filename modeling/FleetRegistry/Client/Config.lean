import FleetRegistry.Json.Decode
import FleetRegistry.Text.Digits

/-!
Settings of a client: where it works, in whose name it writes, how much it lists at once, and
whether it only tries its writes.
-/
namespace FleetRegistry

structure ClientConfig where
  ns : String := "default"
  fieldManager : String := "cluster-registry"
  pageSize : Nat := 100
  dryRun : Bool := false
  deriving DecidableEq

namespace ClientConfig

def namespaceVariable : String := "CLUSTER_REGISTRY_NAMESPACE"

def managerVariable : String := "CLUSTER_REGISTRY_FIELD_MANAGER"

def pageSizeVariable : String := "CLUSTER_REGISTRY_PAGE_SIZE"

/-- The defaults, overridden by variables that are set. Empty names and page sizes that are no
positive numbers are ignored. -/
def ofVariables (lookup : String → Option String) : ClientConfig :=
  let defaults : ClientConfig := {}
  { ns := ((lookup namespaceVariable).filter (!·.isEmpty)).getD defaults.ns
    fieldManager := ((lookup managerVariable).filter (!·.isEmpty)).getD defaults.fieldManager
    pageSize :=
      (((lookup pageSizeVariable).bind fun text => Text.unsigned? UInt32.size text.toList).filter
        (· > 0)).getD defaults.pageSize
    dryRun := false }

def toJson (config : ClientConfig) : Json := .obj [
  ("namespace", .str config.ns),
  ("fieldManager", .str config.fieldManager),
  ("pageSize", .int config.pageSize),
  ("dryRun", .bool config.dryRun)]

def ofJson? (value : Json) : Option ClientConfig := do
  let m ← value.members?
  let defaults : ClientConfig := {}
  return {
    ns := ← Json.defaultedField defaults.ns Json.text? "namespace" m
    fieldManager := ← Json.defaultedField defaults.fieldManager Json.text? "fieldManager" m
    pageSize := ← Json.defaultedField defaults.pageSize (Json.natBelow? UInt32.size) "pageSize" m
    dryRun := ← Json.defaultedField defaults.dryRun Json.bool? "dryRun" m }

end ClientConfig

end FleetRegistry
