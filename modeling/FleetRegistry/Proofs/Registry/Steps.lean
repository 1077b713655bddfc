import FleetRegistry.Proofs.Store.Writes
import FleetRegistry.Registry.Basic

/-!
Calls step by step. A call touches the store in single steps, between which other calls may take
theirs: it reads an object, looks at the store as a whole, or writes. Taken without a break, the
steps of a call are the call.
-/
namespace FleetRegistry

/-- What a call still has to do. -/
inductive Steps (k : Kind) (α : Type) where
  | done (outcome : Outcome α)
  | read (ns : Option String) (name : String) (next : Outcome (Object k) → Steps k α)
  /-- Looks at all there is. -/
  | look (next : Store k → Steps k α)
  | write (w : Store.Write k) (next : Outcome (Object k) → Steps k α)

namespace Steps

variable {k : Kind} {α β : Type}

def run : Steps k α → Store k → Outcome α × Store k
  | done outcome, s => (outcome, s)
  | read ns name next, s => (next (s.get ns name)).run s
  | look next, s => (next s).run s
  | write w next, s => (next (w.apply s).1).run (w.apply s).2

def bind (p : Steps k α) (f : Outcome α → Steps k β) : Steps k β :=
  match p with
  | done outcome => f outcome
  | read ns name next => .read ns name fun found => (next found).bind f
  | look next => .look fun s => (next s).bind f
  | write w next => .write w fun written => (next written).bind f

def map (f : α → β) (p : Steps k α) : Steps k β := p.bind fun outcome => .done (outcome.map f)

@[simp] theorem run_done (outcome : Outcome α) (s : Store k) :
    (done outcome).run s = (outcome, s) := rfl

@[simp] theorem run_read (ns : Option String) (name : String)
    (next : Outcome (Object k) → Steps k α) (s : Store k) :
    (read ns name next).run s = (next (s.get ns name)).run s := rfl

@[simp] theorem run_look (next : Store k → Steps k α) (s : Store k) :
    (look next).run s = (next s).run s := rfl

@[simp] theorem run_write (w : Store.Write k) (next : Outcome (Object k) → Steps k α)
    (s : Store k) : (write w next).run s = (next (w.apply s).1).run (w.apply s).2 := rfl

@[simp] theorem run_bind (p : Steps k α) (f : Outcome α → Steps k β) (s : Store k) :
    (p.bind f).run s = (f (p.run s).1).run (p.run s).2 := by
  induction p generalizing s with
  | done outcome => rfl
  | read ns name next ih => exact ih _ s
  | look next ih => exact ih s s
  | write w next ih => exact ih _ _

@[simp] theorem run_map (p : Steps k α) (f : α → β) (s : Store k) :
    (p.map f).run s = ((p.run s).1.map f, (p.run s).2) := by
  simp [map]

end Steps

namespace Registry

variable {k : Kind}

/-! ## The steps of each call -/

-- Irreducible, so that no comparison of steps ever runs the rules on the object.
@[irreducible] def createSteps (ambient : Ambient) (dryRun : Bool) (o : Object k) :
    Steps k (Object k) :=
  match planCreate ambient.suffix o with
  | .error error => .done (.error error)
  | .ok fresh => if dryRun then .done (.ok fresh) else .write (.create ambient fresh) .done

def planSteps (dryRun : Bool) (ns : Option String) (name : String) (plan : Plan k) :
    Steps k (Object k) :=
  if dryRun then .done (.ok plan.object)
  else match plan with
    | .keep o => .done (.ok o)
    | .put o => .write (.update o) .done
    | .remove _ version => .write (.delete ns name (some { resourceVersion := version })) .done

def updateAtSteps (policy : WritePolicy) (ambient : Ambient) (side : WriteSide)
    (ns : Option String) (name : String) (dryRun : Bool) (new : Object k) : Steps k (Object k) :=
  if name.isEmpty then .done (.error (.badRequest .nameRequired))
  else .read ns name fun
    | .error error =>
      if error.isNotFound && policy.createOnUpdate then createSteps ambient dryRun new
      else .done (.error error)
    | .ok old =>
      match planUpdate policy side name new old with
      | .error error => .done (.error error)
      | .ok plan => planSteps dryRun ns name plan

def updateSteps (policy : WritePolicy) (ambient : Ambient) (side : WriteSide) (dryRun : Bool)
    (new : Object k) : Steps k (Object k) :=
  match scope k new.metadata.ns with
  | .error error => .done (.error error)
  | .ok ns => updateAtSteps policy ambient side ns new.anyName dryRun new

/-- A patch reads twice: what its document goes to, and what the update takes the place of. -/
def patchAtSteps (policy : WritePolicy) (ambient : Ambient) (side : WriteSide)
    (ns : Option String) (name : String) (patch : PatchRequest) (dryRun : Bool) :
    Steps k (Object k) :=
  .read ns name fun
    | .error error => .done (.error error)
    | .ok current =>
      match patched patch current with
      | .error error => .done (.error error)
      | .ok new => updateAtSteps policy ambient side ns name dryRun new

def patchSteps (policy : WritePolicy) (ambient : Ambient) (ns : Option String) (name : String)
    (patch : PatchRequest) (dryRun : Bool) : Steps k (Object k) :=
  match scope k ns with
  | .error error => .done (.error error)
  | .ok ns =>
    match patch.side with
    | .error error => .done (.error error)
    | .ok side => patchAtSteps policy ambient side ns name patch dryRun

def deleteAtSteps (now : Instant) (ns : Option String) (name : String) (options : DeleteOptions) :
    Steps k (Deletion k) :=
  .read ns name fun
    | .error error => .done (.error error)
    | .ok o =>
      match planDelete now options o with
      | .error error => .done (.error error)
      | .ok plan => (planSteps options.dryRun ns name plan).map plan.deletion

def deleteSteps (now : Instant) (ns : Option String) (name : String) (options : DeleteOptions) :
    Steps k (Deletion k) :=
  match scope k ns with
  | .error error => .done (.error error)
  | .ok ns => deleteAtSteps now ns name options

def deleteEachSteps (now : Instant) (options : DeleteOptions) :
    List (Object k) → Steps k (List RegistryError)
  | [] => .done (.ok [])
  | o :: rest =>
    (deleteAtSteps now o.metadata.ns o.anyName options).bind fun
      | .ok _ => deleteEachSteps now options rest
      | .error error => (deleteEachSteps now options rest).map fun errors =>
        if error.isNotFound then errors else error :: errors

def deleteCollectionSteps (now : Instant) (ns : Option String) (selection : ListOptions)
    (options : DeleteOptions) : Steps k Unit :=
  match Selection.ofListOptions selection with
  | .error error => .done (.error error)
  | .ok selection => .look fun s =>
    match s.list (range k ns) selection.unpaged with
    | .error error => .done (.error error)
    | .ok page => (deleteEachSteps now options page.items).bind fun outcome =>
      .done (outcome.bind gathered)

def callSteps (policy : WritePolicy) (ambient : Ambient) (ns : Option String) (call : Call k) :
    Steps k (Answer k (Watch k)) :=
  match call with
  | .get name =>
    match scope k ns with
    | .error error => .done (.error error)
    | .ok ns => (Steps.read ns name .done).map .object
  | .list options => .look fun s => .done ((list ns options s).map .page)
  | .watch options => .look fun s => .done ((watch ambient.clock ns options s).map .stream)
  | .create o options => (createSteps ambient options.dryRun o).map .object
  | .update side o options => (updateSteps policy ambient side options.dryRun o).map .object
  | .patch name document options =>
    (patchSteps policy ambient ns name document options.dryRun).map .object
  | .delete name options => (deleteSteps ambient.now ns name options).map .deletion
  | .deleteCollection selection options =>
    (deleteCollectionSteps ambient.now ns selection options).map fun _ => .done

/-! ## The steps of a call are the call -/

theorem run_createSteps (ambient : Ambient) (dryRun : Bool) (o : Object k) (s : Store k) :
    (createSteps ambient dryRun o).run s = create ambient dryRun o s := by
  unfold createSteps create
  cases planCreate ambient.suffix o with
  | error error => rfl
  | ok fresh => cases dryRun <;> rfl

theorem run_planSteps (dryRun : Bool) (ns : Option String) (name : String) (plan : Plan k)
    (s : Store k) : (planSteps dryRun ns name plan).run s = plan.conclude dryRun ns name s := by
  cases dryRun with
  | true => rfl
  | false => cases plan <;> rfl

theorem run_updateAtSteps (policy : WritePolicy) (ambient : Ambient) (side : WriteSide)
    (ns : Option String) (name : String) (dryRun : Bool) (new : Object k) (s : Store k) :
    (updateAtSteps policy ambient side ns name dryRun new).run s
      = updateAt policy ambient side ns name dryRun new s := by
  unfold updateAtSteps updateAt
  split
  next => rfl
  next =>
    rw [Steps.run_read]
    cases s.get ns name with
    | error error =>
      simp only
      split
      next => exact run_createSteps ..
      next => rfl
    | ok old =>
      simp only
      cases planUpdate policy side name new old with
      | error error => rfl
      | ok plan => exact run_planSteps ..

theorem run_updateSteps (policy : WritePolicy) (ambient : Ambient) (side : WriteSide)
    (dryRun : Bool) (new : Object k) (s : Store k) :
    (updateSteps policy ambient side dryRun new).run s
      = update policy ambient side dryRun new s := by
  unfold updateSteps update
  cases scope k new.metadata.ns with
  | error error => rfl
  | ok ns => exact run_updateAtSteps ..

theorem run_patchSteps (policy : WritePolicy) (ambient : Ambient) (ns : Option String)
    (name : String) (document : PatchRequest) (dryRun : Bool) (s : Store k) :
    (patchSteps policy ambient ns name document dryRun).run s
      = patch policy ambient ns name document dryRun s := by
  unfold patchSteps patch
  cases scope k ns with
  | error error => rfl
  | ok ns =>
    cases document.side with
    | error error => rfl
    | ok side =>
      simp only [patchAtSteps, patchAt, Steps.run_read]
      cases s.get ns name with
      | error error => rfl
      | ok current =>
        simp only
        cases patched document current with
        | error error => rfl
        | ok new => exact run_updateAtSteps ..

theorem run_deleteAtSteps (now : Instant) (ns : Option String) (name : String)
    (options : DeleteOptions) (s : Store k) :
    (deleteAtSteps now ns name options).run s = deleteAt now ns name options s := by
  unfold deleteAtSteps deleteAt
  rw [Steps.run_read]
  cases s.get ns name with
  | error error => rfl
  | ok o =>
    simp only
    cases planDelete now options o with
    | error error => rfl
    | ok plan =>
      simp only [Steps.run_map, run_planSteps]
      rcases plan.conclude options.dryRun ns name s with ⟨_ | _, _⟩ <;> rfl

theorem run_deleteSteps (now : Instant) (ns : Option String) (name : String)
    (options : DeleteOptions) (s : Store k) :
    (deleteSteps now ns name options).run s = delete now ns name options s := by
  unfold deleteSteps delete
  cases scope k ns with
  | error error => rfl
  | ok ns => exact run_deleteAtSteps ..

theorem run_deleteEachSteps (now : Instant) (options : DeleteOptions) (objects : List (Object k))
    (s : Store k) :
    (deleteEachSteps now options objects).run s
      = (.ok (deleteEach now options objects s).1, (deleteEach now options objects s).2) := by
  induction objects generalizing s with
  | nil => rfl
  | cons o rest ih =>
    simp only [deleteEachSteps, deleteEach, Steps.run_bind, run_deleteAtSteps]
    rcases deleteAt now o.metadata.ns o.anyName options s with ⟨error | _, s'⟩
    · simp only [Steps.run_map, ih]
      rfl
    · exact ih s'

theorem run_deleteCollectionSteps (now : Instant) (ns : Option String) (selection : ListOptions)
    (options : DeleteOptions) (s : Store k) :
    (deleteCollectionSteps now ns selection options).run s
      = deleteCollection now ns selection options s := by
  unfold deleteCollectionSteps deleteCollection
  cases Selection.ofListOptions selection with
  | error error => rfl
  | ok selection =>
    simp only [Steps.run_look]
    cases s.list (range k ns) selection.unpaged with
    | error error => rfl
    | ok page =>
      simp only [Steps.run_bind, run_deleteEachSteps]
      rfl

/-- Taken without a break, the steps of a call are the call. -/
theorem run_callSteps (policy : WritePolicy) (ambient : Ambient) (ns : Option String)
    (call : Call k) (s : Store k) :
    (callSteps policy ambient ns call).run s = perform policy ambient ns call s := by
  cases call with
  | get name =>
    unfold callSteps perform get
    cases scope k ns <;> rfl
  | list options => rfl
  | watch options => rfl
  | create o options =>
    rw [callSteps, Steps.run_map, run_createSteps]
    rfl
  | update side o options =>
    rw [callSteps, Steps.run_map, run_updateSteps]
    rfl
  | patch name document options =>
    rw [callSteps, Steps.run_map, run_patchSteps]
    rfl
  | delete name options =>
    rw [callSteps, Steps.run_map, run_deleteSteps]
    rfl
  | deleteCollection selection options =>
    rw [callSteps, Steps.run_map, run_deleteCollectionSteps]
    rfl

end Registry

end FleetRegistry
