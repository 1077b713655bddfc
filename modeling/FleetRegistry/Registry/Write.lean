import FleetRegistry.Registry.Plan
import FleetRegistry.Request.Selection

/-!
Writes. Each one reads what is stored, makes a plan and carries it out, or says what it would come
to.
-/
namespace FleetRegistry.Registry

variable {k : Kind}

/-- The namespace of a call about one object. Kinds outside namespaces ignore it; the others need
one. -/
def scope (k : Kind) (ns : Option String) : Outcome (Option String) :=
  if !k.namespaced then .ok none
  else match ns.filter (!·.isEmpty) with
    | some ns => .ok (some ns)
    | none => .error (.badRequest .namespaceRequired)

/-- The namespace of a call about many objects; without one, it is about all namespaces. -/
def range (k : Kind) (ns : Option String) : Option String :=
  if k.namespaced then ns.filter (!·.isEmpty) else none

def create (ambient : Ambient) (dryRun : Bool) (o : Object k) (s : Store k) :
    Outcome (Object k) × Store k :=
  match planCreate ambient.suffix o with
  | .error error => (.error error, s)
  | .ok fresh => if dryRun then (.ok fresh, s) else s.create ambient fresh

def updateAt (policy : WritePolicy) (ambient : Ambient) (side : WriteSide) (ns : Option String)
    (name : String) (dryRun : Bool) (new : Object k) (s : Store k) :
    Outcome (Object k) × Store k :=
  if name.isEmpty then (.error (.badRequest .nameRequired), s)
  else match s.get ns name with
    | .error error =>
      if error.isNotFound && policy.createOnUpdate then create ambient dryRun new s
      else (.error error, s)
    | .ok old =>
      match planUpdate policy side name new old with
      | .error error => (.error error, s)
      | .ok plan => plan.conclude dryRun ns name s

/-- Updates one side of an object at its own address. -/
def update (policy : WritePolicy) (ambient : Ambient) (side : WriteSide) (dryRun : Bool)
    (new : Object k) (s : Store k) : Outcome (Object k) × Store k :=
  match scope k new.metadata.ns with
  | .error error => (.error error, s)
  | .ok ns => updateAt policy ambient side ns new.anyName dryRun new s

def patchAt (policy : WritePolicy) (ambient : Ambient) (side : WriteSide) (ns : Option String)
    (name : String) (patch : PatchRequest) (dryRun : Bool) (s : Store k) :
    Outcome (Object k) × Store k :=
  match s.get ns name with
  | .error error => (.error error, s)
  | .ok current =>
    match patched patch current with
    | .error error => (.error error, s)
    | .ok new => updateAt policy ambient side ns name dryRun new s

def patch (policy : WritePolicy) (ambient : Ambient) (ns : Option String) (name : String)
    (patch : PatchRequest) (dryRun : Bool) (s : Store k) : Outcome (Object k) × Store k :=
  match scope k ns with
  | .error error => (.error error, s)
  | .ok ns =>
    match patch.side with
    | .error error => (.error error, s)
    | .ok side => patchAt policy ambient side ns name patch dryRun s

def deleteAt (now : Instant) (ns : Option String) (name : String) (options : DeleteOptions)
    (s : Store k) : Outcome (Deletion k) × Store k :=
  match s.get ns name with
  | .error error => (.error error, s)
  | .ok object =>
    match planDelete now options object with
    | .error error => (.error error, s)
    | .ok plan =>
      match plan.conclude options.dryRun ns name s with
      | (.error error, s) => (.error error, s)
      | (.ok object, s) => (.ok (plan.deletion object), s)

def delete (now : Instant) (ns : Option String) (name : String) (options : DeleteOptions)
    (s : Store k) : Outcome (Deletion k) × Store k :=
  match scope k ns with
  | .error error => (.error error, s)
  | .ok ns => deleteAt now ns name options s

/-- Deletes objects one after the other and gathers what fails. An object that is gone by then is
no failure. -/
def deleteEach (now : Instant) (options : DeleteOptions) :
    List (Object k) → Store k → List RegistryError × Store k
  | [], s => ([], s)
  | object :: rest, s =>
    match deleteAt now object.metadata.ns object.anyName options s with
    | (.ok _, s) => deleteEach now options rest s
    | (.error error, s) =>
      let (errors, s) := deleteEach now options rest s
      (if error.isNotFound then errors else error :: errors, s)

def gathered (errors : List RegistryError) : Outcome Unit :=
  match RegistryError.collect errors with
  | some error => .error error
  | none => .ok ()

/-- Deletes all selected objects, on whatever page they are. -/
def deleteCollection (now : Instant) (ns : Option String) (selection : ListOptions)
    (options : DeleteOptions) (s : Store k) : Outcome Unit × Store k :=
  match Selection.ofListOptions selection with
  | .error error => (.error error, s)
  | .ok selection =>
    match s.list (range k ns) selection.unpaged with
    | .error error => (.error error, s)
    | .ok page =>
      let (errors, s) := deleteEach now options page.items s
      (gathered errors, s)

end FleetRegistry.Registry
