import FleetRegistry.Client.StandIn
import FleetRegistry.Proofs.Registry.Effects

/-!
Calls that are only tried. Among the steps of such a call there is no write, so it leaves the store
as it was, and runs of calls come to the same without it. The stand-in for a server keeps its stores
in the same way.
-/
namespace FleetRegistry

/-! ## Steps without a write -/

namespace Steps

variable {k : Kind} {α β : Type}

def WritesNothing : Steps k α → Prop
  | done _ => True
  | read _ _ next => ∀ found, (next found).WritesNothing
  | look next => ∀ s, (next s).WritesNothing
  | write _ _ => False

namespace WritesNothing

theorem bind {p : Steps k α} {f : Outcome α → Steps k β} (first : p.WritesNothing)
    (rest : ∀ outcome, (f outcome).WritesNothing) : (p.bind f).WritesNothing := by
  induction p with
  | done outcome => exact rest outcome
  | read ns name next ih => exact fun found => ih found (first found)
  | look next ih => exact fun s => ih s (first s)
  | write w next => exact first.elim

theorem map {p : Steps k α} (f : α → β) (h : p.WritesNothing) : (p.map f).WritesNothing :=
  h.bind fun _ => trivial

theorem run_store {p : Steps k α} (h : p.WritesNothing) (s : Store k) : (p.run s).2 = s := by
  induction p with
  | done outcome => rfl
  | read ns name next ih => exact ih _ (h _)
  | look next ih => exact ih s (h s)
  | write w next => exact h.elim

end WritesNothing

end Steps

/-! ## The registry -/

namespace Registry

variable {k : Kind} {policy : WritePolicy} {ambient : Ambient} {ns : Option String} {name : String}
  {now : Instant} {options : DeleteOptions}

theorem createSteps_dryRun (o : Object k) : (createSteps ambient true o).WritesNothing := by
  unfold createSteps
  cases planCreate ambient.suffix o <;> trivial

theorem planSteps_dryRun (plan : Plan k) : (planSteps true ns name plan).WritesNothing := trivial

theorem updateAtSteps_dryRun (side : WriteSide) (new : Object k) :
    (updateAtSteps policy ambient side ns name true new).WritesNothing := by
  unfold updateAtSteps
  split
  next => trivial
  next =>
    intro found
    cases found with
    | error error =>
      dsimp only
      split
      next => exact createSteps_dryRun new
      next => trivial
    | ok old =>
      dsimp only
      cases planUpdate policy side name new old with
      | error error => trivial
      | ok plan => exact planSteps_dryRun plan

theorem updateSteps_dryRun (side : WriteSide) (new : Object k) :
    (updateSteps policy ambient side true new).WritesNothing := by
  unfold updateSteps
  cases scope k new.metadata.ns with
  | error error => trivial
  | ok ns => exact updateAtSteps_dryRun side new

theorem patchSteps_dryRun (document : PatchRequest) :
    (patchSteps (k := k) policy ambient ns name document true).WritesNothing := by
  unfold patchSteps
  cases scope k ns with
  | error error => trivial
  | ok ns =>
    cases document.side with
    | error error => trivial
    | ok side =>
      intro found
      cases found with
      | error error => trivial
      | ok current =>
        dsimp only
        cases patched document current with
        | error error => trivial
        | ok new => exact updateAtSteps_dryRun side new

theorem deleteAtSteps_dryRun (dry : options.dryRun = true) :
    (deleteAtSteps (k := k) now ns name options).WritesNothing := by
  intro found
  cases found with
  | error error => trivial
  | ok o =>
    dsimp only
    cases planDelete now options o with
    | error error => trivial
    | ok plan =>
      rw [dry]
      exact (planSteps_dryRun plan).map _

theorem deleteSteps_dryRun (dry : options.dryRun = true) :
    (deleteSteps (k := k) now ns name options).WritesNothing := by
  unfold deleteSteps
  cases scope k ns with
  | error error => trivial
  | ok ns => exact deleteAtSteps_dryRun dry

theorem deleteEachSteps_dryRun (dry : options.dryRun = true) (objects : List (Object k)) :
    (deleteEachSteps now options objects).WritesNothing := by
  induction objects with
  | nil => trivial
  | cons o rest ih =>
    refine (deleteAtSteps_dryRun dry).bind fun outcome => ?_
    cases outcome with
    | error error => exact ih.map _
    | ok deletion => exact ih

theorem deleteCollectionSteps_dryRun (dry : options.dryRun = true) (selection : ListOptions) :
    (deleteCollectionSteps (k := k) now ns selection options).WritesNothing := by
  unfold deleteCollectionSteps
  cases Selection.ofListOptions selection with
  | error error => trivial
  | ok selection =>
    intro s
    dsimp only
    cases s.list (range k ns) selection.unpaged with
    | error error => trivial
    | ok page => exact (deleteEachSteps_dryRun dry page.items).bind fun _ => trivial

/-- No step of a call that is only tried is a write, whatever other calls do in between. -/
theorem callSteps_dryRun {call : Call k} (dry : call.dryRun = true) :
    (callSteps policy ambient ns call).WritesNothing := by
  cases call with
  | get name | list options | watch options => cases dry
  | create o options =>
    rw [callSteps, show options.dryRun = true from dry]
    exact (createSteps_dryRun o).map _
  | update side o options =>
    rw [callSteps, show options.dryRun = true from dry]
    exact (updateSteps_dryRun side o).map _
  | patch name document options =>
    rw [callSteps, show options.dryRun = true from dry]
    exact (patchSteps_dryRun document).map _
  | delete name options => exact (deleteSteps_dryRun dry).map _
  | deleteCollection selection options =>
    exact (deleteCollectionSteps_dryRun dry selection).map _

theorem perform_dryRun {call : Call k} (dry : call.dryRun = true) (s : Store k) :
    (perform policy ambient ns call s).2 = s := by
  rw [← run_callSteps]
  exact (callSteps_dryRun dry).run_store s

theorem after_filter_dryRun (policy : WritePolicy) (requests : List (Request k)) (s : Store k) :
    after policy s requests = after policy s (requests.filter fun r => !r.call.dryRun) := by
  induction requests generalizing s with
  | nil => rfl
  | cons r rest ih =>
    have first : after policy s (r :: rest)
        = after policy (perform policy r.ambient r.ns r.call s).2 rest := rfl
    cases dry : r.call.dryRun with
    | true => rw [first, perform_dryRun dry, ih, List.filter_cons_of_neg (by simp [dry])]
    | false =>
      rw [first, ih, List.filter_cons_of_pos (by simp [dry])]
      rfl

end Registry

/-! ## The stand-in -/

namespace StandIn

variable {k : Kind} {ambient : Ambient} {ns : Option String}

theorem create_dryRun (o : Object k) (s : Store k) : (create ambient ns true o s).2 = s := by
  unfold create
  cases bind ns o <;> rfl

theorem update_dryRun (o : Object k) (s : Store k) : (update ns true o s).2 = s := by
  unfold update
  cases bind ns o <;> rfl

theorem patch_dryRun (name : String) (document : PatchRequest) (s : Store k) :
    (patch ns name document true s).2 = s := by
  unfold patch
  cases s.get ns name with
  | error error => rfl
  | ok current =>
    dsimp only
    cases patched document current with
    | error error => rfl
    | ok o =>
      dsimp only
      split <;> rfl

theorem delete_dryRun {options : DeleteOptions} (dry : options.dryRun = true) (name : String)
    (s : Store k) : (delete ns name options s).2 = s := by
  rw [delete, if_pos dry]

theorem deleteCollection_dryRun {options : DeleteOptions} (dry : options.dryRun = true)
    (selection : ListOptions) (s : Store k) :
    (deleteCollection ns selection options s).2 = s := by
  unfold deleteCollection
  cases Selection.ofListOptions selection with
  | error error => rfl
  | ok selection =>
    dsimp only
    cases s.list ns selection.unpaged with
    | error error => rfl
    | ok page => simp only [dry, if_true]

theorem perform_dryRun {call : Call k} (dry : call.dryRun = true) (s : Store k) :
    (perform ambient ns call s).2 = s := by
  cases call with
  | get name | list options | watch options => cases dry
  | create o options =>
    rw [perform, show options.dryRun = true from dry]
    exact create_dryRun o s
  | update side o options =>
    cases side with
    | main =>
      rw [perform, show options.dryRun = true from dry]
      exact update_dryRun o s
    | status =>
      rw [perform, show options.dryRun = true from dry]
      rfl
  | patch name document options =>
    rw [perform, show options.dryRun = true from dry]
    exact patch_dryRun name document s
  | delete name options => exact delete_dryRun dry name s
  | deleteCollection selection options => exact deleteCollection_dryRun dry selection s

@[simp] theorem withStore_store (s : StandIn) : s.withStore k (s.store k) = s := by
  cases k <;> rfl

theorem serve_dryRun {call : Call k} (dry : call.dryRun = true) (ambient : Ambient) (ns : String)
    (s : StandIn) : (s.serve ambient ns call).2
      = { s with actions := s.actions ++ [Action.ofCall (boundTo k ns) call] } := by
  unfold serve
  dsimp only
  split
  next => rfl
  next =>
    have kept (store : Store k) : (perform ambient (boundTo k ns) call store).2 = store :=
      perform_dryRun dry store
    simp only [kept, withStore_store]

end StandIn

/-- A call that is only tried leaves what is stored as it was, whatever it is answered: the objects
and their order, the revision and the history of events. This holds for the registry under any
policy, and for both stores of the stand-in, whatever its reactors do. -/
theorem Call.dryRun_keeps_stores {k : Kind} (call : Call k) (dry : call.dryRun = true)
    (ambient : Ambient) :
    (∀ (r : Registry k) (ns : Option String), (r.serve ambient ns call).2.store = r.store)
    ∧ ∀ (s : StandIn) (ns : String), (s.serve ambient ns call).2.clusters = s.clusters
      ∧ (s.serve ambient ns call).2.records = s.records := by
  refine ⟨fun r ns => Registry.perform_dryRun dry r.store, fun s ns => ?_⟩
  rw [StandIn.serve_dryRun dry]
  exact ⟨rfl, rfl⟩

def Call.emptying (dryRun : Bool) : Call .cluster := .deleteCollection {} { dryRun }

def Registry.ofOne : Registry .cluster :=
  { store := Registry.after {} (.empty .cluster) [.plain (.create (.bareCluster "a") {})] }

/-- A deletion of everything that is only tried leaves the cluster; in earnest it does not. -/
theorem Call.dryRun_keeps_stores_emptying :
    let standIn : StandIn := { clusters := Registry.ofOne.store }
    (Registry.ofOne.serve .plain none (emptying true)).2.store = Registry.ofOne.store
    ∧ (standIn.serve .plain "" (emptying true)).2.clusters = Registry.ofOne.store
    ∧ Registry.ofOne.store.objects.length = 1
    ∧ (Registry.ofOne.serve .plain none (emptying false)).2.store.objects = []
    ∧ (standIn.serve .plain "" (emptying false)).2.clusters.objects = [] := by
  intro standIn
  have ⟨inRegistry, inStandIn⟩ := dryRun_keeps_stores (emptying true) rfl .plain
  exact ⟨inRegistry Registry.ofOne none, (inStandIn standIn "").1, by decide +kernel,
    by decide +kernel, by decide +kernel⟩

end FleetRegistry
