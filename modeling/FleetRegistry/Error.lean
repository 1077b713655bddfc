import FleetRegistry.Field.Error
import FleetRegistry.Patch.Error
import FleetRegistry.Selector.Error
import FleetRegistry.Text.Base64

/-!
Errors of the registry. Every layer reports the same errors, by cause; the wording, the status code
and the reason of each are given here once.
-/
namespace FleetRegistry

inductive TokenFault where
  | notBase64 (fault : Text.Base64.Fault)
  | notToken
  | unsupportedVersion (version : String)
  deriving DecidableEq, Repr

def TokenFault.message : TokenFault → String
  | notBase64 fault => "invalid continue token: " ++ fault.message
  | notToken => "invalid continue token: not a paging cursor"
  | unsupportedVersion version =>
    "continue token version " ++ Text.quote version ++ " is not supported"

inductive RequestFault where
  | nameRequired
  | namespaceRequired
  | versionOnCreate
  | invalidVersion (text : String)
  | token (fault : TokenFault)
  | selector (error : SelectorError)
  | patch (error : PatchError)
  /-- The patched document is no object of this kind. -/
  | patchedNotObject (kind : String)
  | unsupportedSubresource (name : String)
  | namespaceMismatch
  | nameChanged (old new : String)
  /-- A fault in the words of a server. -/
  | stated (text : String)
  deriving DecidableEq, Repr

def RequestFault.message : RequestFault → String
  | nameRequired => "name is required"
  | namespaceRequired => "namespace is required for this resource"
  | versionOnCreate => "resourceVersion should not be set on objects to be created"
  | invalidVersion text => "invalid resource version " ++ Text.quote text
  | token fault => fault.message
  | selector error => error.message
  | patch error => error.message
  | patchedNotObject kind => "patched object is not a valid " ++ kind ++ ": unexpected shape"
  | unsupportedSubresource name => "unsupported subresource " ++ Text.quote name
  | namespaceMismatch =>
    "the namespace of the provided object does not match the namespace sent on the request"
  | nameChanged old new =>
    "patch may not change the object name from " ++ Text.quote old ++ " to " ++ Text.quote new
  | stated text => text

inductive TransportFault where
  | unaddressable
  | tooLongManager
  | unanswered
  | undecodable
  deriving DecidableEq, Repr

def TransportFault.message : TransportFault → String
  | unaddressable => "the request cannot be addressed"
  | tooLongManager => "the field manager is too long"
  | unanswered => "the server does not answer"
  | undecodable => "the answer cannot be decoded"

/-- An error of the registry. Objects are named with the collection or the kind they belong to. -/
inductive RegistryError where
  | notFound (resource name : String)
  | alreadyExists (resource name : String)
  | conflict (resource name reason : String)
  | invalid (kind name : String) (errors : FieldErrors)
  | forbidden (resource name reason : String)
  | badRequest (fault : RequestFault)
  /-- A version that is no longer kept, and the oldest that is. -/
  | expired (requested oldest : String)
  | aggregate (errors : List RegistryError)
  /-- Any other status of a server. -/
  | api (code : Nat) (reason message : String)
  | transport (fault : TransportFault)
  | serialization
  deriving Inhabited

namespace RegistryError

def name : RegistryError → String
  | notFound .. => "NotFound"
  | alreadyExists .. => "AlreadyExists"
  | conflict .. => "Conflict"
  | invalid .. => "Invalid"
  | forbidden .. => "Forbidden"
  | badRequest .. => "BadRequest"
  | expired .. => "Expired"
  | aggregate .. => "Aggregate"
  | api .. => "Api"
  | transport .. => "Transport"
  | serialization => "Serialization"

mutual

def message : RegistryError → String
  | notFound resource name => resource ++ " \"" ++ name ++ "\" not found"
  | alreadyExists resource name => resource ++ " \"" ++ name ++ "\" already exists"
  | conflict resource name reason =>
    "Operation cannot be fulfilled on " ++ resource ++ " \"" ++ name ++ "\": " ++ reason
  | invalid kind name errors =>
    kind ++ " \"" ++ name ++ "\" is invalid: " ++ FieldErrors.message errors
  | forbidden resource name reason =>
    resource ++ " \"" ++ name ++ "\" is forbidden: " ++ reason
  | badRequest fault => "bad request: " ++ fault.message
  | expired requested oldest =>
    "too old resource version: " ++ requested ++ " (" ++ oldest ++ ")"
  | aggregate errors =>
    match messages errors with
    | [] => ""
    | [message] => message
    | several => "[" ++ ", ".intercalate several ++ "]"
  | api code reason message => message ++ " (" ++ reason ++ ", HTTP " ++ Nat.repr code ++ ")"
  | transport fault => "transport error: " ++ fault.message
  | serialization => "serialization error: unexpected shape"

def messages : List RegistryError → List String
  | [] => []
  | error :: rest => message error :: messages rest

end

def code : RegistryError → Nat
  | notFound .. => 404
  | alreadyExists .. | conflict .. => 409
  | invalid .. => 422
  | forbidden .. => 403
  | badRequest .. => 400
  | expired .. => 410
  | api code .. => code
  | transport .. => 503
  | aggregate .. | serialization => 500

def reason : RegistryError → String
  | api _ reason _ => reason
  | transport .. => "ServiceUnavailable"
  | aggregate .. | serialization => "InternalError"
  | error => error.name

def isNotFound : RegistryError → Bool
  | notFound .. => true
  | _ => false

def isAlreadyExists : RegistryError → Bool
  | alreadyExists .. => true
  | _ => false

/-- Whether a write came too late. -/
def isConflict : RegistryError → Bool
  | conflict .. => true
  | _ => false

def isInvalid : RegistryError → Bool
  | invalid .. => true
  | _ => false

/-- Several errors as one: none stays none, and one stays itself. -/
def collect : List RegistryError → Option RegistryError
  | [] => none
  | [error] => some error
  | errors => some (aggregate errors)

/-- The error that a server's status stands for, about an object of a collection. -/
def ofStatus (resource name : String) (code : Nat) (reason message : String) : RegistryError :=
  if code = 404 then notFound resource name
  else if code = 409 then
    if reason = "AlreadyExists" then alreadyExists resource name
    else conflict resource name message
  else if code = 422 then invalid resource name [⟨.invalid, "", none, message⟩]
  else if code = 403 then forbidden resource name message
  else if code = 400 then badRequest (.stated message)
  else if code = 410 then expired "" message
  else api code reason message

end RegistryError

abbrev Outcome := Except RegistryError

theorem Outcome.toOption_eq_some {α : Type} {outcome : Outcome α} {a : α} :
    outcome.toOption = some a ↔ outcome = .ok a := by
  cases outcome <;> simp [Except.toOption]

theorem Outcome.bind_eq_ok {ε α β : Type} {outcome : Except ε α} {f : α → Except ε β} {b : β} :
    outcome.bind f = .ok b ↔ ∃ a, outcome = .ok a ∧ f a = .ok b := by
  cases outcome <;> simp [Except.bind]

end FleetRegistry
