import FleetRegistry.Proofs.Registry.Validity

/-!
Deletions in progress. An object whose deletion has begun waits for its finalizers, of which it has
at least one; the marks of the deletion stay as they are until the object is gone.
-/
namespace FleetRegistry

variable {k : Kind}

/-- What shows that a deletion has begun, and how long it may take. -/
def ObjectMeta.deletionMarks (m : ObjectMeta) : Option Instant × Option Int64 :=
  (m.deletionTimestamp, m.deletionGracePeriodSeconds)

theorem ObjectMeta.isDeleting_congr {m m' : ObjectMeta} (h : m.deletionMarks = m'.deletionMarks) :
    m.isDeleting = m'.isDeleting := congrArg (fun marks => marks.1.isSome) h

namespace Registry

variable {old new : Object k} {now : Instant} {finalizers : List String}

theorem completed_deletionMarks (h : old.metadata.isDeleting = true) :
    (completed new old).metadata.deletionMarks = old.metadata.deletionMarks := by
  obtain ⟨since, begun⟩ := Option.isSome_iff_exists.1 h
  simp [completed, Object.mapMeta, ObjectMeta.deletionMarks, h, begun]

theorem marked_deletionMarks (h : old.metadata.isDeleting = true) :
    (marked now finalizers old).metadata.deletionMarks = old.metadata.deletionMarks := by
  rw [marked_of_deleting h]
  rfl

theorem marked_finalizerList : (marked now finalizers old).metadata.finalizerList = finalizers := by
  unfold marked Object.mapMeta
  dsimp only
  split <;> rfl

/-! ## What one write keeps -/

theorem mayStay_of_revises {final : Object k} (h : Revises old final) : MayStay final := by
  cases h with
  | main _ _ stays => exact stays
  | status _ _ stays => exact stays
  | marked now propagation waits =>
    intro _
    rwa [marked_finalizerList]

theorem deletionMarks_of_revises {final : Object k} (h : Revises old final)
    (begun : old.metadata.isDeleting = true) :
    final.metadata.deletionMarks = old.metadata.deletionMarks := by
  cases h with
  | main new =>
    have kept : (completed new old).metadata.deletionMarks = old.metadata.deletionMarks :=
      completed_deletionMarks begun
    exact kept
  | status => rfl
  | marked => exact marked_deletionMarks begun

/-! ## What all calls keep -/

theorem mayStay_invariant : Invariant (k := k) fun _ o => MayStay o where
  later _ h := h
  created planned ambient n := by
    obtain ⟨-, rfl⟩ := planCreate_eq_ok planned
    exact nofun
  revised _ revises := (mayStay_of_revises revises :)

/-- An object goes on with its key, and with the marks of a deletion once it has them. -/
structure GoesOn (o o' : Object k) : Prop where
  key : o'.key = o.key
  marks : o.metadata.isDeleting = true → o'.metadata.deletionMarks = o.metadata.deletionMarks

theorem goesOn_bond : Bond (k := k) GoesOn where
  refl _ := ⟨rfl, fun _ => rfl⟩
  trans first next :=
    ⟨next.key.trans first.key, fun begun =>
      have marks := first.marks begun
      (next.marks (ObjectMeta.isDeleting_congr marks ▸ begun)).trans marks⟩
  revised key revises _ := ⟨key, fun begun => (deletionMarks_of_revises revises begun :)⟩

/-- After any calls, every stored object that is being deleted has a finalizer, and none has both
finalizers of a deletion. An object that is being deleted keeps its key and the marks of the
deletion through all further calls, for as long as its place is its own. -/
theorem deletion_lifecycle (policy : WritePolicy) (requests : List (Request k)) :
    let s := after policy (.empty k) requests
    (∀ o ∈ s.toList, (o.metadata.isDeleting = true → o.metadata.finalizerList ≠ [])
      ∧ ¬(orphanFinalizer ∈ o.metadata.finalizerList
        ∧ foregroundFinalizer ∈ o.metadata.finalizerList))
    ∧ ∀ more place o o', (place, o) ∈ s.objects → o.metadata.isDeleting = true →
      (place, o') ∈ (after policy s more).objects →
      o'.key = o.key ∧ o'.metadata.deletionTimestamp = o.metadata.deletionTimestamp
        ∧ o'.metadata.deletionGracePeriodSeconds = o.metadata.deletionGracePeriodSeconds := by
  intro s
  refine ⟨fun o stored => ⟨?_, ?_⟩, ?_⟩
  · exact mayStay_invariant.after policy requests o stored
  · exact (sound_invariant.after policy requests o stored).regular.finalizers.exclusive
  · intro more place o o' before begun later
    rw [← after_append] at later
    have goesOn := goesOn_bond.after policy requests more before later
    have marks := Prod.ext_iff.1 (goesOn.marks begun)
    exact ⟨goesOn.key, marks.1, marks.2⟩

/-- A cluster that waits for a finalizer, and is then written without the marks of its deletion. -/
theorem deletion_lifecycle_rewritten :
    let held (labels : Option StringMap) : Object .cluster :=
      (Object.bareCluster "a").mapMeta fun m =>
        { m with labels, finalizers := some ["example.com/hold"] }
    let requests := [.plain (.create (held none) {}), .plain (.delete "a" {})]
    let more := [.plain (.update .main (held (some (.ofList [("tier", "one")]))) {})]
    let s := after {} (.empty .cluster) requests
    let s' := after {} s more
    ∃ o o', s.objects = [(0, o)] ∧ s'.objects = [(0, o')] ∧ o.metadata.isDeleting = true
      ∧ o.metadata.labels ≠ o'.metadata.labels ∧ o.metadata.finalizerList ≠ []
      ∧ o'.metadata.deletionTimestamp = o.metadata.deletionTimestamp := by
  intro held requests more s s'
  have before : s.objects.map (fun e => (e.1, e.2.metadata.isDeleting, e.2.metadata.labels))
      = [(0, true, none)] := by decide +kernel
  have later : s'.objects.map (fun e => (e.1, e.2.metadata.labels))
      = [(0, some (.ofList [("tier", "one")]))] := by decide +kernel
  obtain ⟨⟨place, o⟩, stored, parts⟩ := List.map_eq_singleton_iff.1 before
  obtain ⟨⟨place', o'⟩, stored', parts'⟩ := List.map_eq_singleton_iff.1 later
  simp only [Prod.mk.injEq] at parts parts'
  obtain ⟨rfl, begun, unlabelled⟩ := parts
  obtain ⟨rfl, labelled⟩ := parts'
  have mem : (0, o) ∈ s.objects := stored ▸ List.mem_singleton_self _
  have mem' : (0, o') ∈ s'.objects := stored' ▸ List.mem_singleton_self _
  have ⟨waiting, kept⟩ := deletion_lifecycle {} requests
  have listed : o ∈ s.toList := List.mem_map_of_mem mem
  have marks := kept more 0 o o' mem begun mem'
  exact ⟨o, o', stored, stored', begun, by simp [unlabelled, labelled], (waiting o listed).1 begun,
    marks.2.1⟩

end Registry

end FleetRegistry
