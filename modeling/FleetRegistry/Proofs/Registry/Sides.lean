import FleetRegistry.Proofs.Registry.Edits
import FleetRegistry.Proofs.Registry.Lifecycle

/-!
The two sides of an object have separate writers. What an update of the declared side says about the
observed side is not looked at, and the other way round; and each leaves the side of the other as it
is stored.
-/
namespace FleetRegistry

/-- The object with another declared side, and other labels, annotations, finalizers, owners and
generation. -/
def Object.declaring {k : Kind} (spec : k.Spec) (labels annotations : Option StringMap)
    (finalizers : Option (List String)) (ownerReferences : Option (List OwnerReference))
    (generation : Option Int64) (o : Object k) : Object k :=
  { o with
    spec
    metadata := { o.metadata with
      labels, annotations, finalizers, ownerReferences, generation } }

namespace Registry

variable {k : Kind} {policy : WritePolicy} {ambient : Ambient} {ns : Option String}
  {side : WriteSide} {options : WriteOptions} {s : Store k} {old new : Object k}

/-! ## What is not looked at -/

theorem perform_update_congr (off : policy.createOnUpdate = false) (new' new : Object k)
    (ambient' ambient : Ambient) (space : new'.metadata.ns = new.metadata.ns)
    (name : new'.anyName = new.anyName)
    (plan : ∀ old,
      planUpdate policy side new.anyName new' old = planUpdate policy side new.anyName new old) :
    perform policy ambient' ns (.update side new' options) s
      = perform policy ambient ns (.update side new options) s := by
  have plans : planUpdateAt policy side new.anyName new'
      = planUpdateAt policy side new.anyName new := by
    funext found
    unfold planUpdateAt
    rw [funext plan]
  simp only [perform, update, space, name, updateAt_eq off, plans]

theorem planUpdate_status_congr {new' : Object k} (name : String)
    (version : new'.metadata.resourceVersion = new.metadata.resourceVersion)
    (status : new'.status = new.status) (old : Object k) :
    planUpdate policy .status name new' old = planUpdate policy .status name new old := by
  have checked : checkVersion policy name new' old = checkVersion policy name new old := by
    unfold checkVersion ObjectMeta.versionText
    rw [version]
  have ready : (completed new' old).prepareUpdate .status old
      = (completed new old).prepareUpdate .status old := by
    unfold completed Object.mapMeta Object.prepareUpdate ObjectMeta.versionText
    dsimp only
    rw [version, status]
  simp only [planUpdate, checked, ready]

/-! ## What is left as it is stored -/

theorem update_entry (off : policy.createOnUpdate = false) (h : s.Orderly) {place : Nat}
    (stored : (place, old) ∈ s.objects) :
    ∃ left, (∀ o, (place, o) ∈ (perform policy ambient ns (.update side new options) s).2.objects
        ↔ left = some o)
      ∧ (left = some old ∨ ∃ plan, planUpdate policy side new.anyName new old = .ok plan
        ∧ left = plan.leaves (s.revision + 1) old) := by
  cases inScope : scope k new.metadata.ns with
  | error error =>
    simp only [perform, update, inScope, answering]
    exact ⟨some old, fun _ => h.indexed.mem_at_iff stored, .inl rfl⟩
  | ok space =>
    rw [perform_update off inScope]
    have ends := (Edit.ofUpdate policy side new options space).ends h ambient.now
    obtain ⟨left, entry, kept | ⟨plan, planned, leaves⟩⟩ := ends.entry h.indexed stored
    · exact ⟨left, entry, .inl kept⟩
    · obtain ⟨_, ⟨⟩, planned⟩ := planUpdateAt_eq_ok planned
      exact ⟨left, entry, .inr ⟨plan, planned, leaves⟩⟩

theorem status_of_main {o : Object k} {revision : Nat}
    (left : (planChange (((completed new old).prepareUpdate .main old).canonicalize .main)
      old).leaves revision old = some o) : o.status = old.status := by
  unfold planChange at left
  split at left
  next =>
    cases left
    rfl
  next =>
    split at left
    next => cases left
    next =>
      cases left
      rfl

theorem rest_of_status (stays : MayStay old) (revision : Nat) :
    ∃ o, (planChange (((completed new old).prepareUpdate .status old).canonicalize .status)
        old).leaves revision old = some o
      ∧ o.spec = old.spec
      ∧ { o.metadata with resourceVersion := old.metadata.resourceVersion } = old.metadata := by
  unfold planChange
  split
  next => exact ⟨old, rfl, rfl, rfl⟩
  next =>
    split
    -- What decides on the removal is taken over from the stored object, which may stay.
    next gone =>
      rw [Bool.and_eq_true, List.isEmpty_iff] at gone
      exact absurd gone.2 (stays gone.1)
    next => exact ⟨_, rfl, rfl, rfl⟩

/-- Writers of the declared and of the observed side do not interfere. An update of the declared
side does the same whatever it says about the observed side, and leaves that as it is stored. An
update of the observed side does the same whatever it says about the declared side and about labels,
annotations, finalizers, owners and generation, and leaves the declared side and all metadata except
the version as they are stored. -/
theorem sides_separate (policy : WritePolicy) (off : policy.createOnUpdate = false)
    (requests : List (Request k)) (ambient : Ambient) (ns : Option String) (new : Object k)
    (options : WriteOptions) :
    let s := after policy (.empty k) requests
    let main := perform policy ambient ns (.update .main new options) s
    let status := perform policy ambient ns (.update .status new options) s
    (∀ ambient' observed,
      perform policy ambient' ns (.update .main { new with status := observed } options) s = main)
    ∧ (∀ place old o, (place, old) ∈ s.objects → (place, o) ∈ main.2.objects →
      o.status = old.status)
    ∧ (∀ ambient' spec labels annotations finalizers owners generation,
      let other := new.declaring spec labels annotations finalizers owners generation
      perform policy ambient' ns (.update .status other options) s = status)
    ∧ ∀ place old, (place, old) ∈ s.objects → ∃ o, (place, o) ∈ status.2.objects
      ∧ o.spec = old.spec
      ∧ { o.metadata with resourceVersion := old.metadata.resourceVersion } = old.metadata := by
  intro s main status
  have h : s.Orderly := orderly_after policy requests
  refine ⟨fun ambient' observed => ?_, fun place old o stored left => ?_, ?_,
    fun place old stored => ?_⟩
  · exact perform_update_congr off _ new ambient' ambient rfl rfl fun _ => rfl
  · obtain ⟨x, entry, kept | ⟨plan, planned, rfl⟩⟩ := update_entry off h stored
    · obtain rfl := Option.some.inj (kept.symm.trans ((entry o).1 left))
      rfl
    · obtain ⟨-, -, rfl⟩ := planUpdate_eq_ok planned
      exact status_of_main ((entry o).1 left)
  · intro ambient' spec labels annotations finalizers owners generation other
    exact perform_update_congr off other new ambient' ambient rfl rfl
      (planUpdate_status_congr _ rfl rfl)
  · obtain ⟨x, entry, rfl | ⟨plan, planned, rfl⟩⟩ := update_entry off h stored
    · exact ⟨old, (entry old).2 rfl, rfl, rfl⟩
    · obtain ⟨-, -, rfl⟩ := planUpdate_eq_ok planned
      have stays := mayStay_invariant.after policy requests old (List.mem_map.2 ⟨_, stored, rfl⟩)
      obtain ⟨o, left, kept⟩ := rest_of_status stays (s.revision + 1)
      exact ⟨o, (entry o).2 left, kept⟩

def reporting (region : String) : Object .cluster :=
  { Object.bareCluster "a" with status := some { region := some region } }

def labelledReport (region : String) : Object .cluster :=
  (reporting region).mapMeta fun m => { m with labels := some (.ofList [("tier", "one")]) }

def reports : List (Request .cluster) :=
  [.plain (.create (.bareCluster "a") {}), .plain (.update .status (reporting "eu") {})]

def updated (side : WriteSide) (new : Object .cluster) :
    Outcome (Answer .cluster (Watch .cluster)) × Store .cluster :=
  perform {} .plain none (.update side new {}) (after {} (.empty .cluster) reports)

/-- The same update is made twice, of both sides: one gets through with its label, one with its
region. -/
theorem sides_separate_reported :
    updated .main (labelledReport "eu") = updated .main (labelledReport "us")
      ∧ updated .status (reporting "us") = updated .status (labelledReport "us")
      ∧ ∃ old o o', (after {} (.empty .cluster) reports).objects = [(0, old)]
        ∧ (updated .main (labelledReport "us")).2.objects = [(0, o)]
        ∧ (updated .status (labelledReport "us")).2.objects = [(0, o')]
        ∧ o.metadata.labels.isSome = true ∧ o.status = old.status
        ∧ o'.status = (reporting "us").status ∧ o'.metadata.labels = none ∧ o'.spec = old.spec := by
  have before : (after {} (.empty .cluster) reports).objects.map (·.1) = [0] := by decide +kernel
  have main : (updated .main (labelledReport "us")).2.objects.map
      (fun x => (x.1, x.2.metadata.labels.isSome)) = [(0, true)] := by decide +kernel
  have status : (updated .status (labelledReport "us")).2.objects.map
      (fun x => (x.1, x.2.status, x.2.metadata.labels))
      = [(0, (reporting "us").status, none)] := by decide +kernel
  obtain ⟨⟨_, old⟩, stored, rfl⟩ := List.map_eq_singleton_iff.1 before
  obtain ⟨⟨_, o⟩, left, eq⟩ := List.map_eq_singleton_iff.1 main
  obtain ⟨⟨_, o'⟩, left', eq'⟩ := List.map_eq_singleton_iff.1 status
  simp only [Prod.mk.injEq] at eq eq'
  obtain ⟨rfl, labelled⟩ := eq
  obtain ⟨rfl, region, unlabelled⟩ := eq'
  have there : (0, old) ∈ (after {} (.empty .cluster) reports).objects :=
    stored ▸ List.mem_singleton_self _
  have ⟨unread, kept, unread', kept'⟩ :=
    sides_separate {} rfl reports .plain none (labelledReport "us") {}
  refine ⟨unread .plain (reporting "eu").status, unread' .plain {} none none none none none, old, o,
    o', stored, left, left', labelled, ?_, region, unlabelled, ?_⟩
  · exact kept 0 old o there (left ▸ List.mem_singleton_self _)
  · obtain ⟨x, mem, spec, -⟩ := kept' 0 old there
    have mem : (0, x) ∈ (updated .status (labelledReport "us")).2.objects := mem
    rw [left', List.mem_singleton] at mem
    cases mem
    exact spec

end Registry

end FleetRegistry
