import FleetRegistry.Proofs.Registry.Lifecycle
import FleetRegistry.Proofs.Registry.Locality

/-!
Deletions, from the call to what is left. The finalizers of an object and the policy of its deletion
say what the object has to wait for. If that is nothing, it is gone at once; otherwise it stays, and
waits for just that. Then nothing is left to do for a deletion of the same policy, so that it can be
asked for again at any time.
-/
namespace FleetRegistry

variable {k : Kind}

namespace Registry

/-! ## What is waited for -/

/-- The finalizers without one of them, and with another one at the end if it is not among them. -/
def exchanged (removed added : String) (finalizers : List String) : List String :=
  let kept := finalizers.filter (· ≠ removed)
  if added ∈ kept then kept else kept ++ [added]

/-- What an object with some finalizers waits for when it is deleted under a policy. -/
def awaited (policy : Option PropagationPolicy) (finalizers : List String) : List String :=
  match policy with
  | none => finalizers
  | some .orphan => exchanged "foregroundDeletion" "orphan" finalizers
  | some .foreground => exchanged "orphan" "foregroundDeletion" finalizers
  | some .background => finalizers.filter fun f => f ≠ "orphan" ∧ f ≠ "foregroundDeletion"

variable {policy : Option PropagationPolicy} {finalizers : List String} {removed added : String}

theorem finalizersUnder_eq_awaited (policy : Option PropagationPolicy) (finalizers : List String) :
    finalizersUnder policy finalizers = awaited policy finalizers := by
  unfold finalizersUnder awaited
  cases policy with
  | none => simp [removedFinalizers, addedFinalizer?]
  | some policy =>
    cases policy <;>
      simp [removedFinalizers, addedFinalizer?, exchanged, orphanFinalizer, foregroundFinalizer,
        Bool.and_comm, eq_comm]

theorem exchanged_again (differ : added ≠ removed) (finalizers : List String) :
    exchanged removed added (exchanged removed added finalizers)
      = exchanged removed added finalizers := by
  have without : removed ∉ exchanged removed added finalizers := by
    unfold exchanged
    dsimp only
    split <;> simp [differ.symm]
  have present : added ∈ exchanged removed added finalizers := by
    unfold exchanged
    dsimp only
    split
    next there => exact there
    next => simp
  have kept : (exchanged removed added finalizers).filter (· ≠ removed)
      = exchanged removed added finalizers := by
    refine List.filter_eq_self.2 fun f mem => decide_eq_true fun same => without (same ▸ mem)
  rw [exchanged, kept, if_pos present]

theorem awaited_again (policy : Option PropagationPolicy) (finalizers : List String) :
    awaited policy (awaited policy finalizers) = awaited policy finalizers := by
  match policy with
  | none => rfl
  | some .orphan => exact exchanged_again (by decide) finalizers
  | some .foreground => exact exchanged_again (by decide) finalizers
  | some .background => simp [awaited, List.filter_filter]

/-! ## What is planned -/

variable {options : DeleteOptions} {o : Object k}

theorem planDelete_of_met (now : Instant)
    (met : checkPreconditions options.preconditions o = .ok ()) :
    planDelete now options o =
      let waits := awaited options.propagationPolicy o.metadata.finalizerList
      if waits = [] then .ok (.remove o o.metadata.resourceVersion)
      else if o.metadata.isDeleting = true ∧ waits = o.metadata.finalizerList then .ok (.keep o)
      else .ok (.put (marked now waits o)) := by
  simp only [planDelete, met, finalizersUnder_eq_awaited, List.isEmpty_iff, Bool.and_eq_true,
    decide_eq_true_eq]

/-- An object that waits to be deleted, and is otherwise as it was. -/
structure Waits (old : Object k) (finalizers : List String) (o : Object k) : Prop where
  key : o.key = old.key
  finalizers : o.metadata.finalizers = some finalizers
  deleting : o.metadata.isDeleting = true
  spec : o.spec = old.spec
  status : o.status = old.status
  labels : o.metadata.labels = old.metadata.labels
  annotations : o.metadata.annotations = old.metadata.annotations

theorem Waits.marked (now : Instant) (finalizers : List String) (o : Object k) (revision : Nat) :
    Waits o finalizers ((marked now finalizers o).withVersion revision) := by
  cases begun : o.metadata.isDeleting with
  | true =>
    rw [marked_of_deleting begun]
    exact ⟨rfl, rfl, begun, rfl, rfl, rfl, rfl⟩
  | false =>
    rw [marked_of_live begun]
    exact ⟨rfl, rfl, rfl, rfl, rfl, rfl, rfl⟩

theorem Waits.self (begun : o.metadata.isDeleting = true)
    (something : o.metadata.finalizerList ≠ []) :
    Waits o o.metadata.finalizerList o where
  key := rfl
  finalizers := by
    unfold ObjectMeta.finalizerList at *
    cases given : o.metadata.finalizers with
    | none => simp [given] at something
    | some finalizers => rfl
  deleting := begun
  spec := rfl
  status := rfl
  labels := rfl
  annotations := rfl

theorem planDelete_waits (now : Instant)
    (met : checkPreconditions options.preconditions o = .ok ())
    (waits : awaited options.propagationPolicy o.metadata.finalizerList ≠ []) :
    ∃ plan, planDelete now options o = .ok plan ∧ (∀ x, plan.deletion x = .pending x)
      ∧ ∀ revision, plan.leaves revision o = some (plan.yields revision o)
        ∧ Waits o (awaited options.propagationPolicy o.metadata.finalizerList)
          (plan.yields revision o) := by
  simp only [planDelete_of_met now met, if_neg waits]
  by_cases same : o.metadata.isDeleting = true
      ∧ awaited options.propagationPolicy o.metadata.finalizerList = o.metadata.finalizerList
  · rw [if_pos same]
    obtain ⟨begun, same⟩ := same
    refine ⟨_, rfl, fun _ => rfl, fun _ => ⟨rfl, ?_⟩⟩
    rw [same] at waits ⊢
    exact .self begun waits
  · rw [if_neg same]
    exact ⟨_, rfl, fun _ => rfl, fun revision => ⟨rfl, .marked now _ o revision⟩⟩

theorem Waits.planDelete {old : Object k} {finalizers : List String}
    (waits : Waits old (awaited options.propagationPolicy finalizers) o)
    (something : awaited options.propagationPolicy finalizers ≠ []) (now : Instant) :
    planDelete now { options with preconditions := none } o = .ok (.keep o) := by
  have listed : o.metadata.finalizerList = awaited options.propagationPolicy finalizers := by
    rw [ObjectMeta.finalizerList, waits.finalizers]
    rfl
  rw [planDelete_of_met now rfl]
  simp only [listed, awaited_again, if_neg something, waits.deleting, true_and, if_true]

/-! ## What is left -/

variable {s : Store k} {ns space : Option String} {name : String}

theorem toList_placing_none (s : Store k) (key : ObjectKey) :
    (Store.placing key none s.objects).map (·.2) = s.toList.filter (·.key ≠ key) := by
  unfold Store.placing Store.toList
  rw [List.map_filterMap, List.filter_map, ← List.filterMap_eq_filter, List.map_filterMap]
  refine List.filterMap_congr fun entry _ => ?_
  by_cases here : entry.2.key = key <;> simp [here, Option.guard]

theorem toList_placing_some (s : Store k) (key : ObjectKey) (o : Object k) :
    (Store.placing key (some o) s.objects).map (·.2)
      = s.toList.map fun x => if x.key = key then o else x := by
  unfold Store.placing Store.toList
  rw [List.map_filterMap, List.map_map, ← List.filterMap_eq_map']
  refine List.filterMap_congr fun entry _ => ?_
  by_cases here : entry.2.key = key <;> simp [here]

theorem perform_delete_of_there (inScope : scope k ns = .ok space)
    (there : s.view (.ofAddress k space name) = some o) (policy : WritePolicy) (ambient : Ambient)
    (options : DeleteOptions) :
    perform policy ambient ns (.delete name options) s
      = match planDelete ambient.now options o with
        | .error error => (.error error, s)
        | .ok plan => answering (fun x => .deletion (plan.deletion x))
            (plan.conclude options.dryRun space name s) := by
  have found : s.get space name = .ok o := Store.get_eq_ok.2 there
  rw [perform_delete inScope]
  unfold Edit.run
  simp only [Edit.ofDelete, found]
  rfl

/-- What a deletion makes of a store, once it is planned for an object of the store. -/
structure Deletes (plan : Plan k) (o : Object k) (s : Store k)
    (result : Outcome (Answer k (Watch k)) × Store k) : Prop where
  answer : result.1 = .ok (.deletion (plan.deletion (plan.yields (s.revision + 1) o)))
  objects : result.2.objects = Store.placing o.key (plan.leaves (s.revision + 1) o) s.objects
  view : result.2.view = Function.update s.view o.key (plan.leaves (s.revision + 1) o)

theorem perform_delete_of_planned (h : s.Orderly) (inScope : scope k ns = .ok space)
    (there : s.view (.ofAddress k space name) = some o) (policy : WritePolicy) {ambient : Ambient}
    {plan : Plan k} (earnest : options.dryRun = false)
    (planned : planDelete ambient.now options o = .ok plan) :
    Deletes plan o s (perform policy ambient ns (.delete name options) s) := by
  have concludes : Concludes false plan o s (plan.conclude false space name s) :=
    conclude_concludes h.indexed there (planDelete_basedOn (h.named _ _ there) planned)
  rw [perform_delete_of_there inScope there, planned, earnest]
  refine ⟨?_, concludes.objects, concludes.view⟩
  dsimp only [answering]
  rw [concludes.answer]
  rfl

/-- Deletion, from end to end. An object that has nothing to wait for is gone; any other one stays
in its place, waits for its finalizers as the policy of the deletion has them, and is otherwise as
it was. Deleted once more under the same policy, it is answered as it is, and the store stays the
same. -/
theorem delete_end_to_end (policy : WritePolicy) (requests : List (Request k)) (ns : Option String)
    {o : Object k} (stored : o ∈ (after policy (.empty k) requests).toList) (name : String)
    (options : DeleteOptions) (aimed : (.delete name options : Call k).target? ns = some o.key)
    (earnest : options.dryRun = false)
    (met : checkPreconditions options.preconditions o = .ok ()) (ambient : Ambient) :
    let s := after policy (.empty k) requests
    let finalizers := awaited options.propagationPolicy o.metadata.finalizerList
    let result := perform policy ambient ns (.delete name options) s
    (finalizers = [] → result.1 = .ok (.deletion .deleted)
      ∧ result.2.toList = s.toList.filter (·.key ≠ o.key))
    ∧ (finalizers ≠ [] → ∃ o', result.1 = .ok (.deletion (.pending o')) ∧ Waits o finalizers o'
      ∧ result.2.toList = s.toList.map (fun x => if x.key = o.key then o' else x)
      ∧ ∀ ambient',
        perform policy ambient' ns (.delete name { options with preconditions := none }) result.2
          = (.ok (.deletion (.pending o')), result.2)) := by
  intro s finalizers result
  have h : s.Orderly := orderly_after policy requests
  obtain ⟨space, inScope, key⟩ := Option.map_eq_some_iff.1 aimed
  replace inScope := Outcome.toOption_eq_some.1 inScope
  have there : s.view (.ofAddress k space name) = some o := by
    obtain ⟨⟨place, x⟩, mem, rfl⟩ := List.mem_map.1 stored
    exact h.indexed.view_eq_some_iff.2 ⟨⟨place, mem⟩, key.symm⟩
  have deletes {plan : Plan k} (planned : planDelete ambient.now options o = .ok plan) :
      Deletes plan o s result :=
    perform_delete_of_planned h inScope there policy earnest planned
  refine ⟨fun nothing => ?_, fun something => ?_⟩
  · have gone := deletes ((planDelete_of_met ambient.now met).trans (if_pos nothing))
    refine ⟨gone.answer, ?_⟩
    rw [Store.toList, gone.objects]
    exact toList_placing_none s o.key
  · obtain ⟨plan, planned, pending, left⟩ := planDelete_waits ambient.now met something
    obtain ⟨leaves, waits⟩ := left (s.revision + 1)
    obtain ⟨answer, objects, view⟩ := deletes planned
    rw [pending] at answer
    rw [leaves] at objects view
    refine ⟨plan.yields (s.revision + 1) o, answer, waits, ?_, fun ambient' => ?_⟩
    · rw [Store.toList, objects]
      exact toList_placing_some s o.key _
    · have still : result.2.view (.ofAddress k space name)
          = some (plan.yields (s.revision + 1) o) := by
        rw [view, key, Function.update_self]
      rw [perform_delete_of_there inScope still, waits.planDelete something]
      dsimp only
      rw [earnest]
      rfl

/-- A cluster whose finalizers speak of an earlier policy is deleted in the foreground, twice. -/
theorem delete_end_to_end_foreground :
    let held : Object .cluster :=
      (Object.bareCluster "a").mapMeta fun m =>
        { m with finalizers := some ["example.com/hold", "orphan"] }
    let s := after {} (.empty .cluster) [.plain (.create held {})]
    let result := perform {} .plain none marking s
    ∃ o', result.1 = .ok (.deletion (.pending o')) ∧ result.2.toList = [o']
      ∧ o'.metadata.finalizers = some ["example.com/hold", "foregroundDeletion"]
      ∧ o'.metadata.isDeleting = true
      ∧ perform {} minuteLater none marking result.2
        = (.ok (.deletion (.pending o')), result.2) := by
  intro held s result
  let o := Store.entered .plain 1 (newcomer "" held)
  have all : s.toList = [o] := by decide +kernel
  obtain ⟨-, stays⟩ := delete_end_to_end {} [.plain (.create held {})] none
    (all ▸ List.mem_singleton_self o) "a" { propagationPolicy := some .foreground } rfl rfl rfl
    .plain
  obtain ⟨o', answer, waits, left, again⟩ := stays (by decide +kernel)
  refine ⟨o', answer, ?_, waits.finalizers.trans (by decide +kernel), waits.deleting,
    again minuteLater⟩
  rw [all] at left
  exact left

end Registry

end FleetRegistry
