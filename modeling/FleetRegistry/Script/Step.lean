import FleetRegistry.Request.Call
import FleetRegistry.Script.Fields

/-!
Steps of a script: what is to be done, and to what. A step that makes a call gives the call in
writing.
-/
namespace FleetRegistry.Script

structure Step where
  action : String
  ns : Option String
  name : String
  write : WriteOptions
  fields : Json.Members

def Step.ofFields (m : Json.Members) : Decoded Step := do
  let action ← text m "do"
  let ns ← opt m "namespace" Json.text?
  let name ← textD m "name" ""
  let dryRun ← flag m "dryRun"
  let fieldManager ← opt m "fieldManager" Json.text?
  return ⟨action, ns, name, ⟨dryRun, fieldManager⟩, m⟩

/-- The kind that fields are about; clusters, unless records are named. -/
def kindOf (m : Json.Members) : Kind :=
  if (m.find? "kind").bind Json.text? = some "DNSRecord" then .dnsRecord else .cluster

namespace Step

def object (k : Kind) (s : Step) : Decoded (Object k) := need s.fields "object" (Object.ofJson? k)

def listOptions (name : String) (s : Step) : Decoded ListOptions :=
  optD s.fields name {} ListOptions.ofJson?

def watchOptions (s : Step) : Decoded WatchOptions :=
  optD s.fields "options" {} WatchOptions.ofJson?

def deleteOptions (s : Step) : Decoded DeleteOptions :=
  optD s.fields "options" {} DeleteOptions.ofJson?

def watchName (s : Step) : Decoded String := textD s.fields "id" ""

def limit (s : Step) : Decoded (Option Nat) := opt s.fields "max" number?

def patch (s : Step) : Decoded PatchRequest := do
  let type ← need s.fields "type" PatchType.ofJson?
  let subresource ← opt s.fields "subresource" Json.text?
  return ⟨type, (s.fields.find? "patch").getD .null, subresource⟩

/-- The call of a step, if it makes one. -/
def call? (k : Kind) (s : Step) : Option (Decoded (Call k)) :=
  match s.action with
  | "get" => some (.ok (.get s.name))
  | "list" => some ((s.listOptions "options").map .list)
  | "watch" => some do
    let _ ← s.watchName
    return .watch (← s.watchOptions)
  | "create" => some ((s.object k).map (.create · s.write))
  | "update" => some ((s.object k).map (.update .main · s.write))
  | "update_status" => some ((s.object k).map (.update .status · s.write))
  | "patch" => some (s.patch.map (.patch s.name · s.write))
  | "delete" => some (s.deleteOptions.map (.delete s.name))
  | "delete_collection" => some do
    return .deleteCollection (← s.listOptions "list") (← s.deleteOptions)
  | _ => none

end Step

end FleetRegistry.Script
