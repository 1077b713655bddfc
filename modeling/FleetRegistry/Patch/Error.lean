import FleetRegistry.Text.Quoted

/-!
Why a patch cannot be applied.
-/
namespace FleetRegistry

inductive OperationFault where
  | valueDiffers
  | noSuchPath
  | noSuchSource
  | intoItself
  deriving DecidableEq, Repr

def OperationFault.message : OperationFault → String
  | valueDiffers => "value did not match"
  | noSuchPath => "path is invalid"
  | noSuchSource => "\"from\" path is invalid"
  | intoItself => "cannot move the value inside itself"

inductive PatchError where
  /-- The document is no list of operations. -/
  | malformedOperations
  /-- The operation at a position, with the path it gives, fails. -/
  | failed (position : Nat) (path : String) (fault : OperationFault)
  | mergeNotObject
  | strategicNotObject
  | deletesAll
  | unknownDirective (directive : String)
  | elementNotObject (key : String)
  | elementWithoutKey (key : String)
  deriving DecidableEq, Repr

def PatchError.message : PatchError → String
  | malformedOperations => "malformed JSON patch: expected a list of operations"
  | failed position path fault =>
    "unable to apply JSON patch: operation '/" ++ Nat.repr position ++ "' failed at path '"
      ++ path ++ "': " ++ fault.message
  | mergeNotObject => "merge patch must be a JSON object"
  | strategicNotObject => "strategic merge patch must be a JSON object"
  | deletesAll => "$patch: delete is not allowed at the top level"
  | unknownDirective directive => "unknown patch directive " ++ Text.quote directive
  | elementNotObject key => "list elements merged on " ++ Text.quote key ++ " must be objects"
  | elementWithoutKey key => "list element is missing merge key " ++ Text.quote key

end FleetRegistry
