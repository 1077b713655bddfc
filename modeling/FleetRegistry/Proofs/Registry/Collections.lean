import FleetRegistry.Proofs.Registry.Creation
import FleetRegistry.Proofs.Registry.Deletion

/-!
Deletions of many objects at once. What is selected is listed first, and then deleted object by
object, each one under its own address. The objects do not get in each other's way, and an object
that is refused does not keep the others from being deleted; so each of them comes to what a
deletion of its own would bring it to, and all other objects stay as they are.
-/
namespace FleetRegistry

variable {k : Kind}

instance (o : Object k) (space : Option String) : Decidable (o.ShownIn space) :=
  inferInstanceAs (Decidable (_ → _))

namespace Registry

def deleteAlone (policy : WritePolicy) (options : DeleteOptions) (ambient : Ambient) (o : Object k)
    (s : Store k) : Outcome (Answer k (Watch k)) × Store k :=
  perform policy ambient o.metadata.ns (.delete o.anyName options) s

/-- An object that says where it is: its kind has no namespaces, or it is in one. -/
def Addressed (o : Object k) : Prop := k.namespaced = true → o.metadata.namespaceText ≠ ""

variable {policy : WritePolicy} {options : DeleteOptions} {ambient : Ambient} {o : Object k}
  {s s' : Store k} {now : Instant}

theorem addressed_after {requests : List (Request k)}
    (stored : o ∈ (after policy (.empty k) requests).toList) : Addressed o :=
  (sound_invariant.after policy requests o stored).regular.namespaceText

/-! ## One of them -/

theorem deleteAt_of_key {ns space : Option String} {name : String}
    (same : ObjectKey.ofAddress k ns name = .ofAddress k space name) :
    deleteAt now ns name options s = deleteAt now space name options s := by
  have get : s.get ns name = s.get space name := by
    unfold Store.get
    rw [same]
  have conclude (plan : Plan k) : plan.conclude options.dryRun ns name s
      = plan.conclude options.dryRun space name s := by
    unfold Plan.conclude Plan.carryOut Store.delete
    rw [same]
  simp only [deleteAt, get, conclude]

theorem deleteAlone_eq (addressed : Addressed o) :
    deleteAlone policy options ambient o s
      = answering .deletion (deleteAt ambient.now o.metadata.ns o.anyName options s) := by
  have inScope := scope_eq_ok.2 ⟨addressed, rfl⟩
  have same : ObjectKey.ofAddress k o.metadata.ns o.anyName
      = .ofAddress k (if k.namespaced then o.metadata.ns else none) o.anyName := by
    unfold ObjectKey.ofAddress
    cases k.namespaced <;> rfl
  simp only [deleteAlone, perform, delete, inScope, deleteAt_of_key same]

def ownDeletion (options : DeleteOptions) (o : Object k) : Edit k :=
  .ofDelete o.anyName options (if k.namespaced then o.metadata.ns else none)

theorem key_ownDeletion (options : DeleteOptions) (o : Object k) :
    (ownDeletion options o).key = o.key := by
  unfold ownDeletion Edit.key Edit.ofDelete Object.key ObjectKey.ofAddress
  cases k.namespaced <;> rfl

theorem ownDeletion_alike (t t' : Instant) (found : Outcome (Object k)) :
    Outcome.Rel (Plan.Alike t t') ((ownDeletion options o).plan t found)
      ((ownDeletion options o).plan t' found) := by
  cases found with
  | error error => exact .error error
  | ok old => exact planDelete_alike t t' options old

theorem ends_deleteAlone (h : s.Orderly) (addressed : Addressed o) (policy : WritePolicy)
    (options : DeleteOptions) (ambient : Ambient) :
    (ownDeletion options o).Ends ambient.now s (deleteAlone policy options ambient o s) := by
  rw [deleteAlone, perform_delete (scope_eq_ok.2 ⟨addressed, rfl⟩)]
  exact (ownDeletion options o).ends h ambient.now

theorem deleteAlone_alike (h : s.Orderly) (h' : s'.Orderly) (addressed : Addressed o)
    (same : s.view o.key = s'.view o.key) (ambient ambient' : Ambient) :
    let single := deleteAlone policy options ambient o s
    let single' := deleteAlone policy options ambient' o s'
    error? single.1 = error? single'.1
      ∧ Option.Rel (Object.Alike ambient.now ambient'.now) (single.2.view o.key)
        (single'.2.view o.key) := by
  intro single single'
  rw [← key_ownDeletion options o] at same ⊢
  obtain ⟨verdict, left, -⟩ := (ends_deleteAlone h addressed policy options ambient).alike
    (ends_deleteAlone h' addressed policy options ambient') (ownDeletion_alike _ _) same
  refine ⟨?_, left⟩
  generalize single.1 = outcome at verdict
  generalize single'.1 = outcome' at verdict
  cases verdict <;> rfl

theorem planDelete_refused {error : RegistryError}
    (refused : planDelete now options o = .error error) : error.isNotFound = false := by
  have checked : checkPreconditions options.preconditions o = .error error := by
    unfold planDelete at refused
    grind
  unfold checkPreconditions at checked
  split at checked
  next conflict =>
    cases checked
    obtain ⟨p, -, conflict⟩ := Option.bind_eq_some_iff.1 conflict
    unfold Preconditions.conflict? Preconditions.conflict?.versionConflict? at conflict
    grind [RegistryError.isNotFound]
  next => cases checked

theorem deleteAt_refused (h : s.Orderly) (there : s.view o.key = some o) (now : Instant)
    (options : DeleteOptions) (error : RegistryError)
    (refused : (deleteAt now o.metadata.ns o.anyName options s).1 = .error error) :
    error.isNotFound = false := by
  have found : s.get o.metadata.ns o.anyName = .ok o := Store.get_eq_ok.2 there
  unfold deleteAt at refused
  simp only [found] at refused
  cases planned : planDelete now options o with
  | error error' =>
    simp only [planned] at refused
    cases refused
    exact planDelete_refused planned
  | ok plan =>
    have based := planDelete_basedOn (h.named _ _ there) planned
    have concludes : Concludes options.dryRun plan o s
        (plan.conclude options.dryRun o.metadata.ns o.anyName s) :=
      conclude_concludes h.indexed there based
    have answer := concludes.answer
    simp only [planned] at refused
    split at refused
    next eq =>
      rw [eq] at answer
      cases answer
    next => cases refused

/-! ## One after the other -/

/-- What becomes of a store whose objects are deleted one after the other: each of them comes to
what a deletion of its own would bring it to, wherever it is stored; the others stay as they are,
and all of them stay where they are. -/
structure DeletesEach (policy : WritePolicy) (options : DeleteOptions) (ambient : Ambient)
    (list : List (Object k)) (s s' : Store k) : Prop where
  objects : s'.objects = s.objects.filterMap fun entry =>
    (s'.view entry.2.key).map (entry.1, ·)
  others : ∀ key, key ∉ list.map Object.key → s'.view key = s.view key
  each : ∀ o ∈ list, ∀ {s₀ : Store k}, s₀.Orderly → s₀.view o.key = some o → ∀ ambient',
    Option.Rel (Object.Alike ambient.now ambient'.now) (s'.view o.key)
      ((deleteAlone policy options ambient' o s₀).2.view o.key)

variable {list : List (Object k)}

/-- Objects of a store that can be deleted one after the other: they are there, each of them
once. -/
structure Listed (list : List (Object k)) (s : Store k) : Prop where
  orderly : s.Orderly
  once : (list.map Object.key).Nodup
  there : ∀ o ∈ list, s.view o.key = some o
  addressed : ∀ o ∈ list, Addressed o

theorem Listed.key_not_mem (listed : Listed list s) (stored : s.view o.key = some o)
    (hidden : o ∉ list) : o.key ∉ list.map Object.key := by
  intro mem
  obtain ⟨x, here, same⟩ := List.mem_map.1 mem
  have there := listed.there x here
  rw [same, stored] at there
  exact hidden (Option.some.inj there ▸ here)

theorem Listed.tail (listed : Listed (o :: list) s) (policy : WritePolicy) (options : DeleteOptions)
    (ambient : Ambient) : Listed list (deleteAlone policy options ambient o s).2 where
  orderly := listed.orderly.leads (perform_leads listed.orderly ..)
  once := (List.nodup_cons.1 listed.once).2
  there x mem := by
    have other : x.key ≠ o.key := fun same =>
      (List.nodup_cons.1 listed.once).1 (same ▸ List.mem_map_of_mem mem)
    have addressed := listed.addressed o (List.mem_cons_self ..)
    have first := ends_deleteAlone listed.orderly addressed policy options ambient
    rw [first.elsewhere (key_ownDeletion options o ▸ other)]
    exact listed.there x (List.mem_cons_of_mem _ mem)
  addressed x mem := listed.addressed x (List.mem_cons_of_mem _ mem)

/-- Objects are deleted one after the other by calls of their own, and what fails is what fails of
these calls, each of them made first. -/
theorem deleteEach_eq (listed : Listed list s) (policy : WritePolicy) (options : DeleteOptions)
    (ambient : Ambient) :
    deleteEach ambient.now options list s
      = (list.filterMap fun o => error? (deleteAlone policy options ambient o s).1,
        list.foldl (fun s o => (deleteAlone policy options ambient o s).2) s) := by
  induction list generalizing s with
  | nil => rfl
  | cons o rest ih =>
    have addressed := listed.addressed o (List.mem_cons_self ..)
    have tail := listed.tail policy options ambient
    have later : rest.filterMap (fun x => error? (deleteAlone policy options ambient x
          (deleteAlone policy options ambient o s).2).1)
        = rest.filterMap fun x => error? (deleteAlone policy options ambient x s).1 := by
      refine List.filterMap_congr fun x mem => ?_
      have same := (tail.there x mem).trans (listed.there x (List.mem_cons_of_mem _ mem)).symm
      exact (deleteAlone_alike tail.orderly listed.orderly (tail.addressed x mem) same ..).1
    have rest_eq := ih tail
    rw [later, deleteAlone_eq addressed] at rest_eq
    rw [List.filterMap_cons, List.foldl_cons, deleteAlone_eq addressed]
    have refused := deleteAt_refused listed.orderly (listed.there o (List.mem_cons_self ..))
      ambient.now options
    unfold deleteEach
    generalize deleteAt ambient.now o.metadata.ns o.anyName options s = first at rest_eq refused ⊢
    obtain ⟨outcome, s'⟩ := first
    cases outcome with
    | ok deletion => exact rest_eq
    | error error =>
      dsimp only [answering] at rest_eq
      dsimp only
      rw [rest_eq, if_neg (by simp [refused error rfl])]
      rfl

theorem deletesEach (listed : Listed list s) (policy : WritePolicy) (options : DeleteOptions)
    (ambient : Ambient) : DeletesEach policy options ambient list s
      (list.foldl (fun s o => (deleteAlone policy options ambient o s).2) s) := by
  induction list generalizing s with
  | nil =>
    refine ⟨?_, fun _ _ => rfl, fun _ mem => absurd mem List.not_mem_nil⟩
    refine List.filterMap_some.symm.trans (List.filterMap_congr ?_)
    rintro ⟨place, x⟩ mem
    rw [List.foldl_nil, listed.orderly.indexed.view_of_mem mem]
    rfl
  | cons o rest ih =>
    have addressed := listed.addressed o (List.mem_cons_self ..)
    have there := listed.there o (List.mem_cons_self ..)
    have tail := listed.tail policy options ambient
    have fresh : o.key ∉ rest.map Object.key := (List.nodup_cons.1 listed.once).1
    have first := ends_deleteAlone listed.orderly addressed policy options ambient
    have placed := first.placed listed.orderly.indexed
    rw [key_ownDeletion] at placed
    have last := ih tail
    have left := last.others o.key fresh
    rw [List.foldl_cons]
    refine ⟨?_, fun key absent => ?_, fun x mem s₀ h₀ there₀ ambient' => ?_⟩
    · rw [last.objects, placed, Store.placing, List.filterMap_filterMap]
      refine List.filterMap_congr fun entry _ => ?_
      by_cases here : entry.2.key = o.key
      · rw [if_pos here, here, left]
        cases kept : (deleteAlone policy options ambient o s).2.view o.key with
        | none => rfl
        | some x =>
          have same : x.key = o.key := (tail.orderly.indexed.view_eq_some_iff.1 kept).2
          simp only [Option.map_some, Option.bind_some, same, left, kept]
      · rw [if_neg here]
        rfl
    · obtain ⟨other, absent⟩ := List.ne_and_not_mem_of_not_mem_cons absent
      rw [last.others key absent, first.elsewhere (key_ownDeletion options o ▸ other)]
    · rcases List.mem_cons.1 mem with rfl | later
      · rw [left]
        exact (deleteAlone_alike listed.orderly h₀ addressed (there.trans there₀.symm) ..).2
      · exact last.each x later h₀ there₀ ambient'

/-! ## The whole call -/

theorem items_shown (ns : Option String) (selection : Selection) (s : Store k) :
    (s.whole (range k ns) selection).items
      = s.toList.filter fun o => o.ShownIn ns ∧ selection.selects o = true := by
  rw [Store.items_whole]
  refine List.filter_congr fun o _ => ?_
  rw [Bool.eq_iff_iff]
  simp [Object.wanted, Object.isIn_range]

theorem listed_selected {requests : List (Request k)} (ns : Option String) (selection : Selection) :
    Listed ((after policy (.empty k) requests).toList.filter fun o =>
      o.ShownIn ns ∧ selection.selects o = true) (after policy (.empty k) requests) where
  orderly := orderly_after policy requests
  once := items_shown ns selection _ ▸ (orderly_after policy requests).indexed.keys_whole _ _
  there o mem := by
    obtain ⟨⟨place, x⟩, stored, rfl⟩ := List.mem_map.1 (List.mem_of_mem_filter mem)
    exact (orderly_after policy requests).indexed.view_of_mem stored
  addressed o mem := addressed_after (List.mem_of_mem_filter mem)

theorem perform_deleteCollection {ns : Option String} {listed : ListOptions} {selection : Selection}
    (wellFormed : Selection.ofListOptions listed = .ok selection) :
    perform policy ambient ns (.deleteCollection listed options) s
      = let deleted := deleteEach ambient.now options
          (s.toList.filter fun o => o.ShownIn ns ∧ selection.selects o = true) s
        answering (fun _ => .done) (gathered deleted.1, deleted.2) := by
  have list : s.list (range k ns) selection.unpaged
      = .ok (s.whole (range k ns) selection.unpaged) := Store.list_unpaged rfl rfl
  simp only [perform, deleteCollection, wellFormed, list, items_shown]
  rfl

theorem ofListOptions_paged {listed : ListOptions} {selection : Selection}
    (wellFormed : Selection.ofListOptions listed = .ok selection) (limit : Option Nat)
    (token : Option String) :
    Selection.ofListOptions { listed with limit := limit, continueToken := token }
      = .ok { selection with
        limit := limit.filter (· > 0), continueToken := token.filter (!·.isEmpty) } := by
  obtain ⟨selectors, parsed, eq⟩ := Outcome.bind_eq_ok.1 wellFormed
  cases eq
  exact Outcome.bind_eq_ok.2 ⟨selectors, parsed, rfl⟩

/-- The deletion of a collection deletes what is selected, whatever page of it the list options ask
for, in the order of creation, each object as by a call of its own. -/
theorem deletes_selected (policy : WritePolicy) (requests : List (Request k)) (ns : Option String)
    {listed : ListOptions} {selection : Selection}
    (wellFormed : Selection.ofListOptions listed = .ok selection) (options : DeleteOptions)
    (ambient : Ambient) :
    let s := after policy (.empty k) requests
    let chosen := s.toList.filter fun o => o.ShownIn ns ∧ selection.selects o = true
    let result := perform policy ambient ns (.deleteCollection listed options) s
    result.2 = chosen.foldl (fun s o => (deleteAlone policy options ambient o s).2) s
    ∧ result.2.objects = s.objects.filterMap (fun entry =>
      (result.2.view entry.2.key).map (entry.1, ·))
    ∧ (∀ o ∈ s.toList, o ∉ chosen → result.2.view o.key = some o)
    ∧ (∀ o ∈ chosen, ∀ ambient', Option.Rel (Object.Alike ambient.now ambient'.now)
      (result.2.view o.key) ((deleteAlone policy options ambient' o s).2.view o.key))
    ∧ result.1 =
      (match chosen.filterMap fun o => error? (deleteAlone policy options ambient o s).1 with
      | [] => .ok .done
      | [error] => .error error
      | errors => .error (.aggregate errors))
    ∧ ∀ limit token, result = perform policy ambient ns
      (.deleteCollection { listed with limit := limit, continueToken := token } options) s := by
  intro s chosen result
  have all : Listed chosen s := listed_selected ns selection
  have answered : result = answering (fun _ => .done)
      (gathered (chosen.filterMap fun o => error? (deleteAlone policy options ambient o s).1),
        chosen.foldl (fun s o => (deleteAlone policy options ambient o s).2) s) := by
    rw [show result = _ from perform_deleteCollection wellFormed, deleteEach_eq all policy]
  have deletes : DeletesEach policy options ambient chosen s result.2 := by
    rw [answered]
    exact deletesEach all policy options ambient
  refine ⟨congrArg Prod.snd answered, deletes.objects, fun o stored hidden => ?_,
    fun o mem => deletes.each o mem all.orderly (all.there o mem), ?_, fun limit token => ?_⟩
  · obtain ⟨⟨place, x⟩, mem, rfl⟩ := List.mem_map.1 stored
    have there := all.orderly.indexed.view_of_mem mem
    rw [deletes.others _ (all.key_not_mem there hidden), there]
  · rw [answered]
    dsimp only [answering]
    generalize chosen.filterMap _ = errors
    unfold gathered RegistryError.collect
    match errors with
    | [] => rfl
    | [error] => rfl
    | error :: error' :: errors => rfl
  · rw [show result = _ from perform_deleteCollection wellFormed,
      perform_deleteCollection (ofListOptions_paged wellFormed limit token)]
    rfl

/-- Of three clusters that are deleted at once, on pages of one, the first is gone, the second is
another one than was meant, and the third is left to wait. -/
theorem deletes_selected_mixed :
    let given (name uid : String) (finalizers : Option (List String)) : Request .cluster :=
      .plain (.create ⟨{ name := some name, uid := some uid, finalizers }, {}, none⟩ {})
    let requests := [given "a" "meant" none, given "b" "other" none,
      given "c" "meant" (some ["example.com/hold"])]
    let s := after {} (.empty .cluster) requests
    let options : DeleteOptions := { preconditions := some { uid := some "meant" } }
    let result := perform {} .plain none (.deleteCollection { limit := some 1 } options) s
    refusal result.1
        = some ("Operation cannot be fulfilled on clusters.clusterregistry.k8s.io \"b\": "
          ++ "Precondition failed: UID in precondition: meant, UID in object meta: other")
      ∧ result.2.toList.map (fun o => (o.anyName, o.metadata.isDeleting))
        = [("b", false), ("c", true)]
      ∧ ∀ o ∈ s.toList, Option.Rel (Object.Alike Ambient.plain.now minuteLater.now)
        (result.2.view o.key) ((deleteAlone {} options minuteLater o s).2.view o.key) := by
  intro given requests s options result
  have wellFormed : Selection.ofListOptions { limit := some 1 }
      = .ok { Selection.everything with limit := some 1 } := rfl
  obtain ⟨-, -, -, each, -⟩ := deletes_selected {} requests none wellFormed options .plain
  refine ⟨by decide +kernel, by decide +kernel, fun o stored => each o ?_ minuteLater⟩
  refine List.mem_filter.2 ⟨stored, decide_eq_true ⟨nofun, ?_⟩⟩
  exact Selection.selects_of_isEverything rfl o

end Registry

end FleetRegistry
