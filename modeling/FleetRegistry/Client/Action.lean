import FleetRegistry.Request.Call

/-!
Calls as they are written down, and reactors, which may answer a call before anything else does.
-/
namespace FleetRegistry

inductive Verb where
  | get
  | list
  | watch
  | create
  | update
  | delete
  | deleteCollection
  | patch
  deriving DecidableEq, Repr

namespace Verb

def all : List Verb := [get, list, watch, create, update, delete, deleteCollection, patch]

def name : Verb → String
  | get => "get"
  | list => "list"
  | watch => "watch"
  | create => "create"
  | update => "update"
  | delete => "delete"
  | deleteCollection => "delete-collection"
  | patch => "patch"

def ofName? (name : String) : Option Verb := all.find? (·.name = name)

end Verb

structure Action where
  verb : Verb
  resource : String
  ns : Option String
  subresource : Option String := none
  name : Option String := none
  /-- The object or the patch that was sent. -/
  payload : Option Json := none

namespace Action

/-- The record of a call to a client that is bound to a namespace. -/
def ofCall {k : Kind} (ns : Option String) (call : Call k) : Action :=
  let blank (verb : Verb) : Action := { verb, resource := k.plural, ns }
  match call with
  | .get name => { blank .get with name := some name }
  | .list _ => blank .list
  | .watch _ => blank .watch
  | .create object _ =>
    { blank .create with name := some object.anyName, payload := some object.toJson }
  | .update side object _ =>
    { blank .update with
      subresource := if side = .status then some statusSubresource else none
      name := some object.anyName
      payload := some object.toJson }
  | .patch name patch _ =>
    { blank .patch with
      subresource := patch.subresource
      name := some name
      payload := some patch.document }
  | .delete name _ => { blank .delete with name := some name }
  | .deleteCollection .. => blank .deleteCollection

/-- Whether an action is about a collection; a star stands for all of them. -/
def isAbout (resource : String) (action : Action) : Bool :=
  resource = "*" || resource = action.resource

def toJson (action : Action) : Json := .obj [
  ("verb", .str action.verb.name),
  ("resource", .str action.resource),
  ("namespace", .ofText? action.ns),
  ("subresource", .ofText? action.subresource),
  ("name", .ofText? action.name),
  ("payload", action.payload.getD .null)]

end Action

/-- May answer calls: those with its verb, or any verb, about its collection. A reactor that gives
nothing passes the call on. -/
structure Reactor where
  verb : Option Verb
  resource : String
  react : Action → Option (Outcome Json)

namespace Reactor

def handles (reactor : Reactor) (action : Action) : Bool :=
  (reactor.verb.isNone || reactor.verb = some action.verb) && action.isAbout reactor.resource

/-- What the first of several reactors that does not pass an action on makes of it. -/
def firstReaction? (reactors : List Reactor) (action : Action) : Option (Outcome Json) :=
  (reactors.filter (·.handles action)).findSome? fun reactor => reactor.react action

end Reactor

end FleetRegistry
