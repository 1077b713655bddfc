import FleetRegistry.Error
import FleetRegistry.Object.Strategy
import FleetRegistry.Request.Answer
import FleetRegistry.Request.Options

/-!
What can be asked of a registry about objects of one kind. The same calls go to the store in this
process, to its stand-in for tests and to a server; each of them is bound to a namespace elsewhere.
-/
namespace FleetRegistry

/-- A patch: its form, its document, and the part of the object that it goes to. -/
structure PatchRequest where
  type : PatchType
  document : Json
  subresource : Option String := none

def statusSubresource : String := "status"

/-- The side of an object that a part stands for; no part stands for the object itself. -/
def PatchRequest.side (patch : PatchRequest) : Outcome WriteSide :=
  match patch.subresource with
  | none => .ok .main
  | some name =>
    if name = statusSubresource then .ok .status
    else .error (.badRequest (.unsupportedSubresource name))

inductive Call (k : Kind) where
  | get (name : String)
  | list (options : ListOptions)
  | watch (options : WatchOptions)
  | create (object : Object k) (options : WriteOptions)
  | update (side : WriteSide) (object : Object k) (options : WriteOptions)
  | patch (name : String) (patch : PatchRequest) (options : WriteOptions)
  | delete (name : String) (options : DeleteOptions)
  | deleteCollection (selection : ListOptions) (options : DeleteOptions)

namespace Call

def verb {k : Kind} : Call k → String
  | get _ => "get"
  | list _ => "list"
  | watch _ => "watch"
  | create .. => "create"
  | update .main .. => "update"
  | update .status .. => "update_status"
  | patch .. => "patch"
  | delete .. => "delete"
  | deleteCollection .. => "delete_collection"

/-- Whether a call is only tried. Reading calls never are. -/
def dryRun {k : Kind} : Call k → Bool
  | create _ options | update _ _ options | patch _ _ options => options.dryRun
  | delete _ options | deleteCollection _ options => options.dryRun
  | get _ | list _ | watch _ => false

end Call

/-- What a call is answered with. A watch is answered with a stream of changes. -/
inductive Answer (k : Kind) (Stream : Type) where
  | object (object : Object k)
  | page (page : Page k)
  | stream (stream : Stream)
  | deletion (deletion : Deletion k)
  | done

end FleetRegistry
