import FleetRegistry.Object.Basic

/-!
What writers may change. Writes of the object itself leave the observed side alone; writes of the
observed side leave everything else alone. The generation counts changes of the declared side.
-/
namespace FleetRegistry

inductive WriteSide where
  | main
  | status
  deriving DecidableEq, Repr

namespace Object

variable {k : Kind}

/-- A new object: nothing observed yet, first generation. -/
def prepareCreate (o : Object k) : Object k :=
  { o with status := none, metadata := { o.metadata with generation := some 1 } }

/-- The generation after a change of the declared side. -/
def nextGeneration (new old : Object k) : Int64 :=
  let generation := old.metadata.generation.getD 1
  if new.spec = old.spec then generation else generation + 1

/-- A write that may only change the part of an object it is about. -/
def prepareUpdate (side : WriteSide) (new old : Object k) : Object k :=
  match side with
  | .main =>
    { new with
      status := old.status
      metadata := { new.metadata with generation := some (nextGeneration new old) } }
  | .status =>
    { new with
      spec := old.spec
      metadata := { old.metadata with resourceVersion := new.metadata.resourceVersion } }

def updateErrors (side : WriteSide) (new old : Object k) : FieldErrors :=
  new.metadata.updateErrors old.metadata (.ofField "metadata")
    ++ match side with
      | .main => new.errors
      | .status => new.statusErrors (.ofField "status")

/-- The object in the form in which it is kept; only writes of the observed side change it. -/
def canonicalize (side : WriteSide) (o : Object k) : Object k :=
  match side with
  | .main => o
  | .status => { o with status := o.status.map k.canonicalStatus }

end Object

end FleetRegistry
