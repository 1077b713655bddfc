import FleetRegistry.Registry.Basic

/-!
The reasons of errors. Only the status of a server brings a reason of its own; the registry answers
with errors that it makes itself, so that a reason always stands for one cause.
-/
namespace FleetRegistry

def RegistryError.isOwn : RegistryError → Bool
  | api .. => false
  | _ => true

theorem RegistryError.reason_eq_invalid_iff {error : RegistryError} (own : error.isOwn = true) :
    error.reason = "Invalid" ↔ error.isInvalid = true := by
  cases error with
  | api => cases own
  | _ => simp [reason, name, isInvalid]

theorem RegistryError.isOwn_of_collect {errors : List RegistryError} {error : RegistryError}
    (own : ∀ error ∈ errors, error.isOwn = true) (one : collect errors = some error) :
    error.isOwn = true := by
  unfold collect at one
  split at one
  next => cases one
  next only =>
    cases one
    exact own _ List.mem_cons_self
  next =>
    cases one
    rfl

def Outcome.Own {α : Type} (outcome : Outcome α) : Prop :=
  ∀ error, outcome = .error error → error.isOwn = true

namespace Outcome

variable {α β : Type} {outcome : Outcome α}

theorem own_ok (a : α) : Own (.ok a) := nofun

theorem own_error {error : RegistryError} (own : error.isOwn = true) :
    Own (.error error : Outcome α) := by
  rintro _ ⟨⟩
  exact own

theorem Own.map {f : α → β} (own : outcome.Own) : Own (outcome.map f) := by
  cases outcome with
  | ok a => exact own_ok _
  | error error => exact own_error (own error rfl)

theorem Own.error {error : RegistryError} (own : outcome.Own) (eq : outcome = .error error) :
    Own (.error error : Outcome β) := own_error (own error eq)

end Outcome

open Outcome

/-! ## Stores -/

namespace Selection

theorem selectors_own (label field : Option String) : (selectors label field).Own := by
  unfold selectors
  cases LabelSelector.parseOptional label with
  | error error => exact own_error rfl
  | ok label =>
    cases FieldSelector.parseOptional field with
    | error error => exact own_error rfl
    | ok field => exact own_ok _

theorem ofListOptions_own (options : ListOptions) : (ofListOptions options).Own :=
  (selectors_own options.labelSelector options.fieldSelector).map

theorem ofWatchOptions_own (options : WatchOptions) : (ofWatchOptions options).Own :=
  (selectors_own options.labelSelector options.fieldSelector).map

end Selection

variable {k : Kind}

theorem checkPreconditions_own (p : Option Preconditions) (o : Object k) :
    (checkPreconditions p o).Own := by
  unfold checkPreconditions
  split
  next error eq =>
    obtain ⟨p, rfl, conflict⟩ := Option.bind_eq_some_iff.1 eq
    unfold Preconditions.conflict? Preconditions.conflict?.versionConflict? at conflict
    split at conflict <;> grind [RegistryError.isOwn, Own]
  next => exact own_ok _

namespace Store

variable {s : Store k}

theorem get_own (ns : Option String) (name : String) : (s.get ns name).Own := by
  unfold get
  split
  next => exact own_ok _
  next => exact own_error rfl

theorem list_own (ns : Option String) (selection : Selection) : (s.list ns selection).Own := by
  unfold list startPlace
  grind [RegistryError.isOwn, Own, expired]

theorem watch_own (ns : Option String) (selection : Selection) (version : Option String) :
    (s.watch ns selection version).Own := by
  unfold watch initialEvents
  grind [RegistryError.isOwn, Own, expired]

theorem create_own (ambient : Ambient) (o : Object k) : (s.create ambient o).1.Own := by
  unfold create
  grind [RegistryError.isOwn, Own]

theorem update_own (o : Object k) : (s.update o).1.Own := by
  unfold update
  grind [RegistryError.isOwn, Own, missing]

theorem delete_own (ns : Option String) (name : String) (preconditions : Option Preconditions) :
    (s.delete ns name preconditions).1.Own := by
  unfold delete
  cases s.find? (.ofAddress k ns name) with
  | none => exact own_error rfl
  | some found =>
    have own := checkPreconditions_own preconditions found.2
    grind [Own]

end Store

/-! ## Calls -/

namespace Registry

variable {policy : WritePolicy} {ambient : Ambient} {ns : Option String} {s : Store k}

theorem scope_own : (scope k ns).Own := by
  unfold scope
  grind [RegistryError.isOwn, Own]

theorem conclude_own (dryRun : Bool) (name : String) (plan : Plan k) :
    (plan.conclude dryRun ns name s).1.Own := by
  unfold Plan.conclude Plan.carryOut
  split
  next => exact own_ok _
  next =>
    cases plan with
    | keep => exact own_ok _
    | put o => exact Store.update_own o
    | remove _ version => exact Store.delete_own ns name _

theorem create_own (ambient : Ambient) (dryRun : Bool) (o : Object k) (s : Store k) :
    (create ambient dryRun o s).1.Own := by
  unfold create
  cases planned : planCreate ambient.suffix o with
  | error error =>
    unfold planCreate at planned
    grind [RegistryError.isOwn, Own, invalid]
  | ok fresh =>
    cases dryRun with
    | true => exact own_ok _
    | false => exact Store.create_own ambient fresh

theorem planUpdate_own (side : WriteSide) (name : String) (new old : Object k) :
    (planUpdate policy side name new old).Own := by
  unfold planUpdate checkVersion
  grind [RegistryError.isOwn, Own, invalid]

theorem updateAt_own (side : WriteSide) (name : String) (dryRun : Bool) (new : Object k) :
    (updateAt policy ambient side ns name dryRun new s).1.Own := by
  unfold updateAt
  split
  next => exact own_error rfl
  next =>
    split
    next error eq =>
      split
      next => exact create_own ambient dryRun new s
      next => exact (Store.get_own ns name).error eq
    next old eq =>
      split
      next error eq => exact (planUpdate_own side name new old).error eq
      next plan eq => exact conclude_own dryRun name plan

theorem update_own (side : WriteSide) (dryRun : Bool) (new : Object k) :
    (update policy ambient side dryRun new s).1.Own := by
  unfold update
  split
  next error eq => exact scope_own.error eq
  next ns eq => exact updateAt_own side _ dryRun new

theorem patched_own (document : PatchRequest) (current : Object k) :
    (patched document current).Own := by
  unfold patched
  grind [RegistryError.isOwn, Own]

theorem side_own (document : PatchRequest) : document.side.Own := by
  unfold PatchRequest.side
  grind [RegistryError.isOwn, Own]

theorem patchAt_own (side : WriteSide) (name : String) (document : PatchRequest) (dryRun : Bool) :
    (patchAt policy ambient side ns name document dryRun s).1.Own := by
  unfold patchAt
  split
  next error eq => exact (Store.get_own ns name).error eq
  next current eq =>
    split
    next error eq => exact (patched_own document current).error eq
    next new eq => exact updateAt_own side name dryRun new

theorem patch_own (name : String) (document : PatchRequest) (dryRun : Bool) :
    (patch policy ambient ns name document dryRun s).1.Own := by
  unfold patch
  split
  next error eq => exact scope_own.error eq
  next ns eq =>
    split
    next error eq => exact (side_own document).error eq
    next side eq => exact patchAt_own side name document dryRun

theorem planDelete_own (now : Instant) (options : DeleteOptions) (o : Object k) :
    (planDelete now options o).Own := by
  unfold planDelete
  split
  next error eq => exact (checkPreconditions_own options.preconditions o).error eq
  next => grind [Own]

theorem deleteAt_own (now : Instant) (name : String) (options : DeleteOptions) :
    (deleteAt now ns name options s).1.Own := by
  unfold deleteAt
  split
  next error eq => exact (Store.get_own ns name).error eq
  next o eq =>
    split
    next error eq => exact (planDelete_own now options o).error eq
    next plan eq =>
      have own : (plan.conclude options.dryRun ns name s).1.Own :=
        conclude_own options.dryRun name plan
      split
      next error _ eq => exact own.error (congrArg Prod.fst eq)
      next => exact own_ok _

theorem delete_own (now : Instant) (name : String) (options : DeleteOptions) :
    (delete now ns name options s).1.Own := by
  unfold delete
  split
  next error eq => exact scope_own.error eq
  next ns eq => exact deleteAt_own now name options

theorem deleteEach_own (now : Instant) (options : DeleteOptions) (objects : List (Object k))
    (s : Store k) : ∀ error ∈ (deleteEach now options objects s).1, error.isOwn = true := by
  induction objects generalizing s with
  | nil => exact List.forall_mem_nil _
  | cons o rest ih =>
    have own : (deleteAt now o.metadata.ns o.anyName options s).1.Own :=
      deleteAt_own now o.anyName options
    unfold deleteEach
    split
    next => exact ih _
    next error s' eq =>
      have first : error.isOwn = true := own error (congrArg Prod.fst eq)
      simp only
      split
      next => exact ih s'
      next => exact List.forall_mem_cons.2 ⟨first, ih s'⟩

theorem gathered_own {errors : List RegistryError} (own : ∀ error ∈ errors, error.isOwn = true) :
    (gathered errors).Own := by
  unfold gathered
  split
  next error eq => exact own_error (RegistryError.isOwn_of_collect own eq)
  next => exact own_ok _

theorem deleteCollection_own (now : Instant) (selection : ListOptions) (options : DeleteOptions) :
    (deleteCollection now ns selection options s).1.Own := by
  unfold deleteCollection
  split
  next error eq => exact (Selection.ofListOptions_own selection).error eq
  next =>
    split
    next error eq => exact (Store.list_own _ _).error eq
    next page eq => exact gathered_own (deleteEach_own now options page.items s)

theorem get_own (name : String) : (get ns name s).Own := by
  unfold get
  split
  next error eq => exact scope_own.error eq
  next ns eq => exact Store.get_own ns name

theorem list_own (options : ListOptions) : (list ns options s).Own := by
  unfold list
  split
  next error eq => exact (Selection.ofListOptions_own options).error eq
  next selection eq => exact Store.list_own _ selection

theorem watch_own (clock : Nat) (options : WatchOptions) : (watch clock ns options s).Own := by
  unfold watch
  split
  next error eq => exact (Selection.ofWatchOptions_own options).error eq
  next selection eq =>
    split
    next error eq => exact (Store.watch_own _ selection _).error eq
    next => exact own_ok _

theorem perform_own (call : Call k) : (perform policy ambient ns call s).1.Own := by
  cases call <;> simp only [perform, answering]
  case get name => exact (get_own name).map
  case list options => exact (list_own options).map
  case watch options => exact (watch_own ambient.clock options).map
  case create o options => exact (create_own ambient options.dryRun o s).map
  case update side o options => exact (update_own side options.dryRun o).map
  case patch name document options => exact (patch_own name document options.dryRun).map
  case delete name options => exact (delete_own ambient.now name options).map
  case deleteCollection selection options =>
    exact (deleteCollection_own ambient.now selection options).map

end Registry

end FleetRegistry
