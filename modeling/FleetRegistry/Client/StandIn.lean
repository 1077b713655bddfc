import FleetRegistry.Client.Action
import FleetRegistry.Client.Config
import FleetRegistry.Registry.Write
import FleetRegistry.Store.Watch

/-!
A stand-in for a server, for tests. It answers calls from stores in memory. It neither validates nor
fills in, but a write that comes too late is still refused. Every call is written down first; then
reactors may answer it, and only if all of them pass it on does it go to the store.
-/
namespace FleetRegistry

/-- A stand-in: the stores of both kinds, what was asked so far, and reactors, newest first. -/
structure StandIn where
  config : ClientConfig := {}
  clusters : Store .cluster := {}
  records : Store .dnsRecord := {}
  actions : List Action := []
  reactors : List Reactor := []

namespace StandIn

variable {k : Kind}

def store : (k : Kind) → StandIn → Store k
  | .cluster, s => s.clusters
  | .dnsRecord, s => s.records

def withStore : (k : Kind) → Store k → StandIn → StandIn
  | .cluster, store, s => { s with clusters := store }
  | .dnsRecord, store, s => { s with records := store }

@[simp] theorem store_withStore (store : Store k) (s : StandIn) :
    (s.withStore k store).store k = store := by
  cases k <;> rfl

def clearActions (s : StandIn) : StandIn := { s with actions := [] }

def prependReactor (reactor : Reactor) (s : StandIn) : StandIn :=
  { s with reactors := reactor :: s.reactors }

/-- Puts objects into a store, each with what it finds around it. -/
def seed : List (Ambient × Object k) → Store k → Outcome (Store k)
  | [], s => .ok s
  | (ambient, object) :: rest, s =>
    match s.create ambient object with
    | (.error error, _) => .error error
    | (.ok _, s) => seed rest s

/-! ## Calls that go to the store -/

/-- The namespace that a client of a kind is bound to. -/
def boundTo (k : Kind) (ns : String) : Option String := if k.namespaced then some ns else none

/-- An object in the namespace of the client. It must not name another one. -/
def bind (ns : Option String) (o : Object k) : Outcome (Object k) :=
  let bound := o.mapMeta fun m => { m with ns }
  match ns with
  | none => .ok bound
  | some ns =>
    if o.metadata.namespaceText.isEmpty || o.metadata.namespaceText = ns then .ok bound
    else .error (.badRequest .namespaceMismatch)

def create (ambient : Ambient) (ns : Option String) (dryRun : Bool) (o : Object k) (s : Store k) :
    Outcome (Object k) × Store k :=
  match bind ns o with
  | .error error => (.error error, s)
  | .ok o =>
    let named := o.mapMeta (·.named ambient.suffix)
    if dryRun then (.ok named, s) else s.create ambient named

def update (ns : Option String) (dryRun : Bool) (o : Object k) (s : Store k) :
    Outcome (Object k) × Store k :=
  match bind ns o with
  | .error error => (.error error, s)
  | .ok o => if dryRun then (.ok o, s) else s.update o

/-- Puts the observed side of an object into the stored one of its name. -/
def writeStatus (ns : Option String) (o : Object k) (s : Store k) :
    Outcome (Object k) × Store k :=
  match s.get ns o.anyName with
  | .error error => (.error error, s)
  | .ok current =>
    s.update ({ current with status := o.status }.mapMeta fun m =>
      { m with
        resourceVersion :=
          if o.metadata.versionText.isEmpty then m.resourceVersion
          else o.metadata.resourceVersion })

def updateStatus (ns : Option String) (dryRun : Bool) (o : Object k) (s : Store k) :
    Outcome (Object k) × Store k :=
  if dryRun then (.ok o, s) else writeStatus ns o s

def patched (patch : PatchRequest) (current : Object k) : Outcome (Object k) :=
  match Patch.apply k.mergeKeys patch.type patch.document current.toJson with
  | .error error => .error (.badRequest (.patch error))
  | .ok document =>
    match Object.ofJson? k document with
    | none => .error .serialization
    | some object => .ok object

/-- Patches an object; its name has to stay. -/
def patch (ns : Option String) (name : String) (patch : PatchRequest) (dryRun : Bool)
    (s : Store k) : Outcome (Object k) × Store k :=
  match s.get ns name with
  | .error error => (.error error, s)
  | .ok current =>
    match patched patch current with
    | .error error => (.error error, s)
    | .ok object =>
      if object.anyName ≠ name then
        (.error (.badRequest (.nameChanged name object.anyName)), s)
      else if dryRun then (.ok object, s)
      else match patch.side with
        | .error error => (.error error, s)
        | .ok .main => s.update object
        | .ok .status => writeStatus ns object s

/-- Deletes an object at once, whatever its finalizers. -/
def delete (ns : Option String) (name : String) (options : DeleteOptions) (s : Store k) :
    Outcome (Deletion k) × Store k :=
  if options.dryRun then ((s.get ns name).map fun _ => .deleted, s)
  else
    let (outcome, s) := s.delete ns name options.preconditions
    (outcome.map fun _ => .deleted, s)

/-- Deletes objects one after the other and gathers what fails. An object that is gone by then is
no failure. -/
def deleteEach (preconditions : Option Preconditions) :
    List (Object k) → Store k → List RegistryError × Store k
  | [], s => ([], s)
  | object :: rest, s =>
    match s.delete object.metadata.ns object.anyName preconditions with
    | (.ok _, s) => deleteEach preconditions rest s
    | (.error error, s) =>
      let (errors, s) := deleteEach preconditions rest s
      (if error.isNotFound then errors else error :: errors, s)

/-- Deletes all selected objects in the namespace of the client. -/
def deleteCollection (ns : Option String) (selection : ListOptions) (options : DeleteOptions)
    (s : Store k) : Outcome Unit × Store k :=
  match Selection.ofListOptions selection with
  | .error error => (.error error, s)
  | .ok selection =>
    match s.list ns selection.unpaged with
    | .error error => (.error error, s)
    | .ok page =>
      if options.dryRun then (.ok (), s)
      else
        let (errors, s) := deleteEach options.preconditions page.items s
        (Registry.gathered errors, s)

def answering {α : Type} (answer : α → Answer k (Watch k)) (result : Outcome α × Store k) :
    Outcome (Answer k (Watch k)) × Store k :=
  (result.1.map answer, result.2)

def perform (ambient : Ambient) (ns : Option String) (call : Call k) (s : Store k) :
    Outcome (Answer k (Watch k)) × Store k :=
  match call with
  | .get name => ((s.get ns name).map .object, s)
  | .list options => (((Selection.ofListOptions options).bind (s.list ns)).map .page, s)
  | .watch options =>
    (((Selection.ofWatchOptions options).bind fun selection =>
      s.watch ns selection options.resourceVersion).map .stream, s)
  | .create object options => answering .object (create ambient ns options.dryRun object s)
  | .update .main object options => answering .object (update ns options.dryRun object s)
  | .update .status object options => answering .object (updateStatus ns options.dryRun object s)
  | .patch name document options => answering .object (patch ns name document options.dryRun s)
  | .delete name options => answering .deletion (delete ns name options s)
  | .deleteCollection selection options =>
    answering (fun _ => .done) (deleteCollection ns selection options s)

/-! ## Calls that are written down -/

def objectOf (k : Kind) (value : Json) : Outcome (Answer k (Watch k)) :=
  match Object.ofJson? k value with
  | some object => .ok (.object object)
  | none => .error .serialization

/-- A value that a reactor gives, as all objects of a list. -/
def pageOf (k : Kind) (value : Json) : Outcome (Answer k (Watch k)) :=
  match Json.list? (Object.ofJson? k) value with
  | some items => .ok (.page { items })
  | none => .error .serialization

/-- What a reaction means as the answer to a call. To a watch it means nothing, unless it is an
error. -/
def answerOf? (call : Call k) (reaction : Outcome Json) : Option (Outcome (Answer k (Watch k))) :=
  match reaction, call with
  | .error error, _ => some (.error error)
  | .ok _, .watch _ => none
  | .ok value, .list _ => some (pageOf k value)
  | .ok _, .delete .. => some (.ok (.deletion .deleted))
  | .ok _, .deleteCollection .. => some (.ok .done)
  | .ok value, _ => some (objectOf k value)

def serve (ambient : Ambient) (ns : String) (call : Call k) (s : StandIn) :
    Outcome (Answer k (Watch k)) × StandIn :=
  let ns := boundTo k ns
  let action := Action.ofCall ns call
  let s := { s with actions := s.actions ++ [action] }
  match (Reactor.firstReaction? s.reactors action).bind (answerOf? call) with
  | some outcome => (outcome, s)
  | none =>
    let (outcome, store) := perform ambient ns call (s.store k)
    (outcome, s.withStore k store)

end StandIn

end FleetRegistry
