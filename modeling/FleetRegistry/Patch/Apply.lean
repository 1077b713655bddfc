import FleetRegistry.Patch.Merge
import FleetRegistry.Patch.Operations

/-!
Applying a patch of any form to a document. A patch that fails leaves nothing behind.
-/
namespace FleetRegistry

inductive PatchType where
  /-- A list of operations. -/
  | operations
  /-- A plain merge. -/
  | merge
  /-- A merge that knows keyed lists and directives. -/
  | strategic
  deriving DecidableEq, Repr

namespace PatchType

def name : PatchType → String
  | operations => "Json"
  | merge => "Merge"
  | strategic => "Strategic"

def ofName? (name : String) : Option PatchType :=
  if name = "Json" then some .operations
  else if name = "Merge" then some .merge
  else if name = "Strategic" then some .strategic
  else none

@[simp] theorem ofName?_name (type : PatchType) : ofName? type.name = some type := by
  cases type <;> rfl

/-- The type of content under which a patch is sent. -/
def contentType : PatchType → String
  | operations => "application/json-patch+json"
  | merge => "application/merge-patch+json"
  | strategic => "application/strategic-merge-patch+json"

end PatchType

/-- The document after a patch. The keys name the lists whose elements are merged. -/
def Patch.apply (keys : List (String × String)) (type : PatchType) (patch doc : Json) :
    Except PatchError Json :=
  match type with
  | .operations =>
    match Patch.operations patch with
    | .error error => .error error
    | .ok operations => Patch.applyFrom 0 doc operations
  | .merge => if patch.isObject then .ok (Patch.merge patch doc) else .error .mergeNotObject
  | .strategic =>
    if !patch.isObject then .error .strategicNotObject
    else if Patch.asksToDelete patch then .error .deletesAll
    else Patch.strategic keys patch doc

end FleetRegistry
