import FleetRegistry.Request.Answer
import FleetRegistry.Request.Selection
import FleetRegistry.Store.Token

/-!
The store of one kind of objects. Every change takes the next revision, which becomes the version of
the object, and leaves one event in a history of limited length. Objects are held in the order in
which they were created; an index leads from the key of an object to its place in that order.
-/
namespace FleetRegistry

/-- What a call finds around it: the time of day, a clock that only runs forward (in
milliseconds), an unused identity, an unused random part of a name, and how long the call takes (in
microseconds). -/
structure Ambient where
  now : Instant
  clock : Nat
  uid : String
  suffix : String
  elapsed : Nat := 0

structure ObjectKey where
  ns : String
  name : String
  deriving DecidableEq, Repr

/-- The key of an address; kinds outside namespaces do not look at the namespace. -/
def ObjectKey.ofAddress (k : Kind) (ns : Option String) (name : String) : ObjectKey :=
  ⟨if k.namespaced then ns.getD "" else "", name⟩

def Object.key {k : Kind} (o : Object k) : ObjectKey :=
  .ofAddress k o.metadata.ns o.anyName

/-- Whether an object is in a namespace; without one, every object is. An object without a
namespace is in none. -/
def Object.isIn {k : Kind} (o : Object k) (ns : Option String) : Bool :=
  !k.namespaced || ns.isNone || o.metadata.ns == ns

inductive Change (k : Kind) where
  | added
  /-- The object took the place of this one. -/
  | modified (previous : Object k)
  | deleted

/-- A change with its revision and the object after it (a deleted object as it was last). -/
structure Event (k : Kind) where
  revision : Nat
  change : Change k
  object : Object k

structure Store (k : Kind) where
  revision : Nat := 0
  /-- The latest revision whose event is no longer in the history. -/
  compacted : Nat := 0
  nextPlace : Nat := 0
  /-- Objects with their places, in ascending order. -/
  objects : List (Nat × Object k) := []
  index : List (ObjectKey × Nat) := []
  /-- Events in the order of their revisions. -/
  history : List (Event k) := []

namespace Store

variable {k : Kind}

def empty (k : Kind) : Store k := {}

def historyLimit : Nat := 1000

def staleMessage : String :=
  "the object has been modified; please apply your changes to the latest version and try again"

def find? (s : Store k) (key : ObjectKey) : Option (Nat × Object k) := do
  let place ← s.index.lookup key
  let object ← s.objects.lookup place
  return (place, object)

def toList (s : Store k) : List (Object k) := s.objects.map (·.2)

/-- The history with one more event; the oldest makes room for it. -/
def record (event : Event k) (s : Store k) : Store k :=
  match s.history with
  | oldest :: rest =>
    if s.history.length ≥ historyLimit then
      { s with history := rest ++ [event], compacted := oldest.revision }
    else { s with history := s.history ++ [event] }
  | [] => { s with history := [event] }

def missing (k : Kind) (name : String) : RegistryError := .notFound k.qualified name

/-- A new object under a version, with an identity and a time of creation if it has none. -/
def entered (ambient : Ambient) (revision : Nat) (o : Object k) : Object k :=
  (o.withVersion revision).mapMeta fun m =>
    { m with
      uid := if m.uidText.isEmpty then some ambient.uid else m.uid
      creationTimestamp := m.creationTimestamp <|> some ambient.now }

/-- Puts in a new object. It needs a name of its own and must not carry a version. -/
def create (ambient : Ambient) (o : Object k) (s : Store k) : Outcome (Object k) × Store k :=
  if o.key.name.isEmpty then (.error (.badRequest .nameRequired), s)
  else if !o.metadata.versionText.isEmpty then (.error (.badRequest .versionOnCreate), s)
  else if (s.index.lookup o.key).isSome then
    (.error (.alreadyExists k.qualified o.key.name), s)
  else
    let revision := s.revision + 1
    let stored := entered ambient revision o
    (.ok stored,
      record ⟨revision, .added, stored⟩
        { s with
          revision
          nextPlace := s.nextPlace + 1
          objects := s.objects ++ [(s.nextPlace, stored)]
          index := (o.key, s.nextPlace) :: s.index })

def get (ns : Option String) (name : String) (s : Store k) : Outcome (Object k) :=
  match s.find? (.ofAddress k ns name) with
  | some (_, object) => .ok object
  | none => .error (missing k name)

/-- Puts an object in the place of the stored one with its key. If it carries a version, that must
be the stored one. -/
def update (o : Object k) (s : Store k) : Outcome (Object k) × Store k :=
  match s.find? o.key with
  | none => (.error (missing k o.key.name), s)
  | some (place, previous) =>
    if !o.metadata.versionText.isEmpty
        && o.metadata.resourceVersion != previous.metadata.resourceVersion then
      (.error (.conflict k.qualified o.key.name staleMessage), s)
    else
      let revision := s.revision + 1
      let stored := o.withVersion revision
      (.ok stored,
        record ⟨revision, .modified previous, stored⟩
          { s with
            revision
            objects := s.objects.map fun entry =>
              if entry.1 = place then (place, stored) else entry })

def delete (ns : Option String) (name : String) (preconditions : Option Preconditions)
    (s : Store k) : Outcome (Object k) × Store k :=
  match s.find? (.ofAddress k ns name) with
  | none => (.error (missing k name), s)
  | some (place, object) =>
    match checkPreconditions preconditions object with
    | .error error => (.error error, s)
    | .ok () =>
      let revision := s.revision + 1
      let last := object.withVersion revision
      (.ok last,
        record ⟨revision, .deleted, last⟩
          { s with
            revision
            objects := s.objects.filter fun entry => entry.1 ≠ place
            index := s.index.filter fun entry => entry.1 ≠ .ofAddress k ns name })

def expired (requested : String) (s : Store k) : RegistryError :=
  .expired requested (Nat.repr (s.compacted + 1))

/-- The place where a list begins. A token of a version that is no longer kept is refused. -/
def startPlace (token : Option String) (s : Store k) : Outcome Nat :=
  match token with
  | none => .ok 0
  | some text =>
    match ContinueToken.decode text with
    | .error fault => .error (.badRequest (.token fault))
    | .ok token =>
      if token.revision < s.compacted then .error (s.expired (Nat.repr token.revision))
      else .ok token.start

def selected (ns : Option String) (selection : Selection) (start : Nat) (s : Store k) :
    List (Nat × Object k) :=
  s.objects.filter fun (place, object) =>
    start ≤ place && object.isIn ns && selection.selects object

/-- One page of the selected objects, in the order of their creation. -/
def list (ns : Option String) (selection : Selection) (s : Store k) : Outcome (Page k) :=
  match s.startPlace selection.continueToken with
  | .error error => .error error
  | .ok start =>
    let found := s.selected ns selection start
    let (shown, rest) := match selection.limit with
      | none => (found, [])
      | some limit => (found.take limit, found.drop limit)
    .ok {
      items := shown.map (·.2)
      resourceVersion := some (Nat.repr s.revision)
      continueToken := rest.head?.map fun (place, _) =>
        ContinueToken.encode ⟨s.revision, place⟩ }

end Store

end FleetRegistry
