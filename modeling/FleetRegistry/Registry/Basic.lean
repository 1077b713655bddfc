import FleetRegistry.Metrics.Basic
import FleetRegistry.Registry.Write
import FleetRegistry.Store.Watch

/-!
The registry of one kind: a store, the permissions of its writers, and the counts of what was asked
of it. Every call is answered by the store and counted once, whatever comes of it.
-/
namespace FleetRegistry

structure Registry (k : Kind) where
  policy : WritePolicy := {}
  store : Store k := {}
  metrics : Metrics := {}

namespace Registry

variable {k : Kind}

def get (ns : Option String) (name : String) (s : Store k) : Outcome (Object k) :=
  match scope k ns with
  | .error error => .error error
  | .ok ns => s.get ns name

def list (ns : Option String) (options : ListOptions) (s : Store k) : Outcome (Page k) :=
  match Selection.ofListOptions options with
  | .error error => .error error
  | .ok selection => s.list (range k ns) selection

/-- Opens a watch, which ends after so many seconds if that is asked for. -/
def watch (clock : Nat) (ns : Option String) (options : WatchOptions) (s : Store k) :
    Outcome (Watch k) :=
  match Selection.ofWatchOptions options with
  | .error error => .error error
  | .ok selection =>
    match s.watch (range k ns) selection options.resourceVersion with
    | .error error => .error error
    | .ok watch =>
      .ok { watch with deadline := options.timeoutSeconds.map fun s => clock + s * 1000 }

def answering {α : Type} (answer : α → Answer k (Watch k)) (result : Outcome α × Store k) :
    Outcome (Answer k (Watch k)) × Store k :=
  (result.1.map answer, result.2)

/-- Answers a call in a namespace. Objects that are created or updated name theirs themselves. -/
def perform (policy : WritePolicy) (ambient : Ambient) (ns : Option String) (call : Call k)
    (s : Store k) : Outcome (Answer k (Watch k)) × Store k :=
  match call with
  | .get name => ((get ns name s).map .object, s)
  | .list options => ((list ns options s).map .page, s)
  | .watch options => ((watch ambient.clock ns options s).map .stream, s)
  | .create object options => answering .object (create ambient options.dryRun object s)
  | .update side object options =>
    answering .object (update policy ambient side options.dryRun object s)
  | .patch name document options =>
    answering .object (patch policy ambient ns name document options.dryRun s)
  | .delete name options => answering .deletion (delete ambient.now ns name options s)
  | .deleteCollection selection options =>
    answering (fun _ => .done) (deleteCollection ambient.now ns selection options s)

def error? {α : Type} : Outcome α → Option RegistryError
  | .ok _ => none
  | .error error => some error

def opensWatch : Outcome (Answer k (Watch k)) → Bool
  | .ok (.stream _) => true
  | _ => false

def serve (ambient : Ambient) (ns : Option String) (call : Call k) (r : Registry k) :
    Outcome (Answer k (Watch k)) × Registry k :=
  let (outcome, store) := perform r.policy ambient ns call r.store
  let metrics := r.metrics.recordResult k.name call.verb (error? outcome) ambient.elapsed
  (outcome, { r with
    store
    metrics := if opensWatch outcome then metrics.watchStarted k.name else metrics })

def closeWatch (r : Registry k) : Registry k :=
  { r with metrics := r.metrics.watchStopped k.name }

end Registry

end FleetRegistry
