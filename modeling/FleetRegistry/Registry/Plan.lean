import FleetRegistry.Object.Generated
import FleetRegistry.Request.Call
import FleetRegistry.Store.Basic

/-!
How a write is decided. A plan is made from what is stored and what is asked for, before anything is
changed; carrying it out changes at most one object, and only if that object is still the one the
plan was made from.
-/
namespace FleetRegistry

structure WritePolicy where
  /-- An update of an object that does not exist creates it. -/
  createOnUpdate : Bool := false
  /-- An update need not say which version it is based on. -/
  unconditionalUpdate : Bool := true
  deriving DecidableEq, Repr

inductive Plan (k : Kind) where
  /-- Nothing: the object is already as it should be. -/
  | keep (object : Object k)
  /-- Put an object in the place of the stored one. -/
  | put (object : Object k)
  /-- Take the stored object out, which would become this one, if it still has this version. -/
  | remove (object : Object k) (version : Option String)

namespace Plan

variable {k : Kind}

def object : Plan k → Object k
  | keep object | put object | remove object _ => object

def carryOut (ns : Option String) (name : String) (plan : Plan k) (s : Store k) :
    Outcome (Object k) × Store k :=
  match plan with
  | keep object => (.ok object, s)
  | put object => s.update object
  | remove _ version => s.delete ns name (some { resourceVersion := version })

/-- Carries a plan out, or only says what it leads to. -/
def conclude (dryRun : Bool) (ns : Option String) (name : String) (plan : Plan k) (s : Store k) :
    Outcome (Object k) × Store k :=
  if dryRun then (.ok plan.object, s) else plan.carryOut ns name s

/-- What a plan means to one who deletes, with the object after it. -/
def deletion (plan : Plan k) (object : Object k) : Deletion k :=
  match plan with
  | remove .. => .deleted
  | keep _ | put _ => .pending object

end Plan

namespace Registry

variable {k : Kind}

def invalid (k : Kind) (name : String) (errors : FieldErrors) : RegistryError :=
  .invalid k.name name errors

/-! ## Creation -/

/-- An object as it is about to be created: with a name, in a namespace only if its kind has them,
and with no deletion in progress. -/
def newcomer (suffix : String) (o : Object k) : Object k :=
  (o.mapMeta fun m =>
    { m.named suffix with
      ns := if k.namespaced then m.ns else none
      deletionTimestamp := none
      deletionGracePeriodSeconds := none }).prepareCreate

def planCreate (suffix : String) (o : Object k) : Outcome (Object k) :=
  let fresh := newcomer suffix o
  if fresh.errors.isEmpty then .ok (fresh.canonicalize .main)
  else .error (invalid k fresh.anyName fresh.errors)

/-! ## Update -/

/-- The violation of an update that does not say which version it is based on. -/
def versionRequired : FieldErrors :=
  [.required ((FieldPath.ofField "metadata").child "resourceVersion")
    "must be specified for an update"]

def checkVersion (policy : WritePolicy) (name : String) (new old : Object k) : Outcome Unit :=
  if new.metadata.versionText.isEmpty then
    if policy.unconditionalUpdate then .ok () else .error (invalid k name versionRequired)
  else if new.metadata.resourceVersion = old.metadata.resourceVersion then .ok ()
  else .error (.conflict k.qualified name Store.staleMessage)

/-- An update with what its writer left out or has no say in: version, identity, time of creation
and a deletion in progress. -/
def completed (new old : Object k) : Object k :=
  new.mapMeta fun m =>
    { m with
      resourceVersion :=
        if m.versionText.isEmpty then old.metadata.resourceVersion else m.resourceVersion
      uid := if m.uidText.isEmpty then old.metadata.uid else m.uid
      creationTimestamp := old.metadata.creationTimestamp <|> m.creationTimestamp
      deletionTimestamp := old.metadata.deletionTimestamp <|> m.deletionTimestamp
      deletionGracePeriodSeconds :=
        if old.metadata.isDeleting then old.metadata.deletionGracePeriodSeconds
        else m.deletionGracePeriodSeconds }

/-- What becomes of the stored object once it should look like another: an object that is being
deleted goes with its last finalizer. -/
def planChange (final old : Object k) : Plan k :=
  if final = old then .keep old
  else if final.metadata.isDeleting && final.metadata.finalizerList.isEmpty then
    .remove final old.metadata.resourceVersion
  else .put final

/-- The plan of an update of one side of the stored object, which is addressed by a name. -/
def planUpdate (policy : WritePolicy) (side : WriteSide) (name : String) (new old : Object k) :
    Outcome (Plan k) :=
  match checkVersion policy name new old with
  | .error error => .error error
  | .ok () =>
    let ready := (completed new old).prepareUpdate side old
    let errors := ready.updateErrors side old
    if errors.isEmpty then .ok (planChange (ready.canonicalize side) old)
    else .error (invalid k name errors)

/-! ## Patch -/

/-- The object that a patch makes of the stored one. -/
def patched (patch : PatchRequest) (current : Object k) : Outcome (Object k) :=
  match Patch.apply k.mergeKeys patch.type patch.document current.toJson with
  | .error error => .error (.badRequest (.patch error))
  | .ok document =>
    match Object.ofJson? k document with
    | none => .error (.badRequest (.patchedNotObject k.name))
    | some object => .ok object

/-! ## Deletion -/

def addedFinalizer? : Option PropagationPolicy → Option String
  | some .orphan => some orphanFinalizer
  | some .foreground => some foregroundFinalizer
  | some .background => none
  | none => none

def removedFinalizers : Option PropagationPolicy → List String
  | some .orphan => [foregroundFinalizer]
  | some .foreground => [orphanFinalizer]
  | some .background => [orphanFinalizer, foregroundFinalizer]
  | none => []

/-- The finalizers that an object waits for when it is deleted under a policy. -/
def finalizersUnder (policy : Option PropagationPolicy) (finalizers : List String) :
    List String :=
  let kept := finalizers.filter fun f => !(removedFinalizers policy).contains f
  match addedFinalizer? policy with
  | some added => if kept.contains added then kept else kept ++ [added]
  | none => kept

/-- The object with a deletion in progress. A deletion that has begun is not begun again. -/
def marked (now : Instant) (finalizers : List String) (o : Object k) : Object k :=
  o.mapMeta fun m =>
    if m.isDeleting then { m with finalizers := some finalizers }
    else
      { m with
        finalizers := some finalizers
        deletionTimestamp := some now
        deletionGracePeriodSeconds := some 0
        generation := some (m.generation.getD 0 + 1) }

def planDelete (now : Instant) (options : DeleteOptions) (o : Object k) : Outcome (Plan k) :=
  match checkPreconditions options.preconditions o with
  | .error error => .error error
  | .ok () =>
    let finalizers := finalizersUnder options.propagationPolicy o.metadata.finalizerList
    if finalizers.isEmpty then .ok (.remove o o.metadata.resourceVersion)
    else if o.metadata.isDeleting && finalizers = o.metadata.finalizerList then .ok (.keep o)
    else .ok (.put (marked now finalizers o))

end Registry

end FleetRegistry
