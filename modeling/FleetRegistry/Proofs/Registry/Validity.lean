import FleetRegistry.Proofs.Registry.Changes

/-!
What is stored obeys the rules. No single call checks them all: writes of the declared side do not
look at what was observed, writes of the observed side look at nothing else, and a deletion edits
finalizers and generation with no check. So the rules are kept together, for every way in which an
object can come to be stored.
-/
namespace FleetRegistry

variable {k : Kind}

/-! ## The rules of an object, one by one -/

namespace ObjectMeta

/-- The rules for finalizers: qualified names, and not both finalizers of a deletion. -/
structure FinalizersRegular (finalizers : List String) : Prop where
  qualified : ∀ f ∈ finalizers, Name.qualifiedFaults f.toList = []
  exclusive : ¬(orphanFinalizer ∈ finalizers ∧ foregroundFinalizer ∈ finalizers)

theorem textErrors_eq_nil {check : NameCheck} {path : FieldPath} {text : String} :
    textErrors check path text = [] ↔ check text.toList = [] := by
  simp [textErrors]

theorem finalizerErrors_eq_nil {finalizers : List String} {path : FieldPath} :
    finalizerErrors finalizers path = [] ↔ FinalizersRegular finalizers := by
  have each : (∀ entry ∈ finalizers.zipIdx, Name.qualifiedFaults entry.1.toList = [])
      ↔ ∀ f ∈ finalizers, Name.qualifiedFaults f.toList = [] := by
    conv_rhs => rw [← List.zipIdx_map_fst 0 finalizers]
    simp only [List.forall_mem_map]
  simp only [finalizerErrors, List.append_eq_nil_iff, List.flatMap_eq_nil_iff, textErrors_eq_nil]
  rw [each]
  constructor
  · rintro ⟨qualified, both⟩
    exact ⟨qualified, by simpa using both⟩
  · rintro ⟨qualified, exclusive⟩
    exact ⟨qualified, by simpa using exclusive⟩

end ObjectMeta

namespace Registry

open ObjectMeta

/-! ## Finalizers of a deletion -/

theorem mem_finalizersUnder {policy : Option PropagationPolicy} {finalizers : List String}
    {f : String} : f ∈ finalizersUnder policy finalizers
      ↔ addedFinalizer? policy = some f ∨ f ∈ finalizers ∧ f ∉ removedFinalizers policy := by
  have kept : ∀ g, g ∈ finalizers.filter (fun f => !(removedFinalizers policy).contains f)
      ↔ g ∈ finalizers ∧ g ∉ removedFinalizers policy := by simp
  unfold finalizersUnder
  cases addedFinalizer? policy with
  | none => simp
  | some added =>
    simp only [Option.some.injEq]
    split
    next contained =>
      have there := (kept added).1 (List.contains_iff_mem.1 contained)
      constructor
      · exact fun mem => .inr ((kept f).1 mem)
      · rintro (rfl | mem)
        · exact (kept added).2 there
        · exact (kept f).2 mem
    next => simp only [List.mem_append, kept, List.mem_singleton, or_comm, eq_comm]

theorem addedFinalizer_qualified {policy : Option PropagationPolicy} {f : String}
    (h : addedFinalizer? policy = some f) : Name.qualifiedFaults f.toList = [] := by
  have orphan : Name.qualifiedFaults orphanFinalizer.toList = [] := by decide
  have foreground : Name.qualifiedFaults foregroundFinalizer.toList = [] := by decide
  match policy with
  | none | some .background => cases h
  | some .orphan =>
    cases h
    exact orphan
  | some .foreground =>
    cases h
    exact foreground

theorem finalizersUnder_regular {finalizers : List String} (h : FinalizersRegular finalizers)
    (policy : Option PropagationPolicy) :
    FinalizersRegular (finalizersUnder policy finalizers) where
  qualified f mem := by
    rcases mem_finalizersUnder.1 mem with added | ⟨before, -⟩
    · exact addedFinalizer_qualified added
    · exact h.qualified f before
  exclusive := by
    have distinct : orphanFinalizer ≠ foregroundFinalizer := by decide
    have exclusive := h.exclusive
    simp only [mem_finalizersUnder]
    match policy with
    | none => simpa [addedFinalizer?, removedFinalizers] using exclusive
    | some .background => simp [addedFinalizer?, removedFinalizers]
    | some .orphan => simp [addedFinalizer?, removedFinalizers, distinct]
    | some .foreground => simp [addedFinalizer?, removedFinalizers, distinct.symm]

variable {old : Object k} {now : Instant} {finalizers : List String}

theorem marked_of_deleting (h : old.metadata.isDeleting = true) :
    marked now finalizers old = old.mapMeta fun m => { m with finalizers := some finalizers } := by
  simp [marked, Object.mapMeta, h]

theorem marked_of_live (h : old.metadata.isDeleting = false) :
    marked now finalizers old = old.mapMeta fun m => { m with
      finalizers := some finalizers
      deletionTimestamp := some now
      deletionGracePeriodSeconds := some 0
      generation := some (m.generation.getD 0 + 1) } := by
  simp [marked, Object.mapMeta, h]

end Registry

/-! ## Objects that obey the rules -/

namespace Object

variable {o : Object k}

/-- Every rule for metadata and declared side but the one for the generation. -/
structure Regular (o : Object k) : Prop where
  name : o.metadata.nameErrors k.nameCheck (.ofField "metadata") = []
  generateName : o.metadata.generateNameErrors k.nameCheck (.ofField "metadata") = []
  namespaceOfKind : o.metadata.namespaceErrors k.namespaced (.ofField "metadata") = []
  labels : (o.metadata.labels.map
    (ObjectMeta.labelErrors · ((FieldPath.ofField "metadata").child "labels"))).getD [] = []
  annotations : (o.metadata.annotations.map (ObjectMeta.annotationErrors ·
    ((FieldPath.ofField "metadata").child "annotations"))).getD [] = []
  finalizers : ObjectMeta.FinalizersRegular o.metadata.finalizerList
  spec : k.specErrors o.spec (.ofField "spec") = []

theorem listedFinalizerErrors_eq_nil {m : ObjectMeta} {path : FieldPath} :
    (m.finalizers.map (ObjectMeta.finalizerErrors · path)).getD [] = []
      ↔ ObjectMeta.FinalizersRegular m.finalizerList := by
  unfold ObjectMeta.finalizerList
  cases m.finalizers with
  | none => exact ⟨fun _ => ⟨nofun, by simp⟩, fun _ => rfl⟩
  | some finalizers => exact ObjectMeta.finalizerErrors_eq_nil

theorem errors_eq_nil :
    o.errors = [] ↔ o.Regular ∧ o.metadata.generationErrors (.ofField "metadata") = [] := by
  simp only [errors, ObjectMeta.errors, List.append_eq_nil_iff, listedFinalizerErrors_eq_nil]
  constructor
  · rintro ⟨⟨⟨⟨⟨⟨⟨name, generateName⟩, ns⟩, generation⟩, labels⟩, annotations⟩, finalizers⟩, spec⟩
    exact ⟨⟨name, generateName, ns, labels, annotations, finalizers, spec⟩, generation⟩
  · rintro ⟨⟨name, generateName, ns, labels, annotations, finalizers, spec⟩, generation⟩
    exact ⟨⟨⟨⟨⟨⟨⟨name, generateName⟩, ns⟩, generation⟩, labels⟩, annotations⟩, finalizers⟩, spec⟩

theorem Regular.errors (h : o.Regular) :
    o.errors = o.metadata.generationErrors (.ofField "metadata") := by
  simp [Object.errors, ObjectMeta.errors, h.name, h.generateName, h.namespaceOfKind, h.labels,
    h.annotations, listedFinalizerErrors_eq_nil.2 h.finalizers, h.spec]

def ruled (o : Object k) :=
  (o.metadata.name, o.metadata.generateName, o.metadata.ns, o.metadata.labels,
    o.metadata.annotations, o.spec)

theorem Regular.congr {o' : Object k} (h : o.Regular) (same : o'.ruled = o.ruled)
    (finalizers : ObjectMeta.FinalizersRegular o'.metadata.finalizerList) : o'.Regular := by
  simp only [ruled, Prod.mk.injEq] at same
  obtain ⟨name, generateName, ns, labels, annotations, spec⟩ := same
  constructor
  · unfold ObjectMeta.nameErrors ObjectMeta.nameText
    rw [name, generateName]
    exact h.name
  · simpa only [ObjectMeta.generateNameErrors, generateName] using h.generateName
  · simpa only [ObjectMeta.namespaceErrors, ObjectMeta.namespaceText, ns] using h.namespaceOfKind
  · simpa only [labels] using h.labels
  · simpa only [annotations] using h.annotations
  · exact finalizers
  · simpa only [spec] using h.spec

def Counted (n : Nat) (o : Object k) : Prop :=
  ∃ count ≤ n, o.metadata.generation = some (Int64.ofNat count)

theorem Counted.generationErrors {n : Nat} (h : o.Counted n) (path : FieldPath)
    (small : n ≤ Int64.maxValue.toInt) : o.metadata.generationErrors path = [] := by
  obtain ⟨count, le, eq⟩ := h
  rw [Int64.toInt_maxValue] at small
  have value : (Int64.ofNat count).toInt = count := Int64.toInt_ofNat_of_lt (by omega)
  have notNegative : ¬Int64.ofNat count < 0 := by
    rw [Int64.lt_iff_toInt_lt, value, Int64.toInt_zero]
    omega
  simp [ObjectMeta.generationErrors, eq, notNegative]

/-- The zones that were observed of a cluster are in ascending order, each of them once. -/
def ZonesAscending : {k : Kind} → Object k → Prop
  | .cluster, o => ∀ status : ClusterStatus, o.status = some status →
    ∀ zones, status.zones = some zones → zones.Pairwise (· < ·)
  | .dnsRecord, _ => True

theorem ZonesAscending.congr {o' : Object k} (h : o.ZonesAscending) (same : o'.status = o.status) :
    o'.ZonesAscending := by
  cases k with
  | cluster => exact fun status observed => h status (same ▸ observed)
  | dnsRecord => trivial

/-- What holds of all that is stored once a store has come to a revision. -/
structure Sound (n : Nat) (o : Object k) : Prop where
  regular : o.Regular
  counted : o.Counted n
  status : o.statusErrors (.ofField "status") = []
  zones : o.ZonesAscending

namespace Sound

variable {o' : Object k} {m n : Nat}

theorem later (le : m ≤ n) (h : o.Sound m) : o.Sound n where
  regular := h.regular
  counted := h.counted.elim fun count ⟨below, eq⟩ => ⟨count, Nat.le_trans below le, eq⟩
  status := h.status
  zones := h.zones

theorem congr (h : o.Sound m) (regular : o'.Regular) (counted : o'.Counted n)
    (same : o'.status = o.status) : o'.Sound n where
  regular := regular
  counted := counted
  status := by
    unfold statusErrors
    rw [same]
    exact h.status
  zones := h.zones.congr same

theorem withVersion (h : o.Sound n) (revision : Nat) : (o.withVersion revision).Sound n :=
  h.congr (h.regular.congr rfl h.regular.finalizers) h.counted rfl

end Sound

end Object

namespace Registry

open Object

variable {old new : Object k} {n : Nat}

theorem sound_created {suffix : String} {given fresh : Object k}
    (planned : planCreate suffix given = .ok fresh) (ambient : Ambient) (revision : Nat) :
    (Store.entered ambient revision fresh).Sound (n + 1) := by
  obtain ⟨checked, rfl⟩ := planCreate_eq_ok planned
  have regular := (errors_eq_nil.1 checked).1
  refine ⟨regular.congr rfl regular.finalizers, ⟨1, by omega, rfl⟩, rfl, ?_⟩
  cases k with
  | cluster => exact fun status observed => nomatch observed
  | dnsRecord => trivial

theorem sound_main (h : old.Sound n)
    (accepted : ((completed new old).prepareUpdate .main old).updateErrors .main old = []) :
    ((completed new old).prepareUpdate .main old).Sound (n + 1) := by
  obtain ⟨count, le, eq⟩ := h.counted
  have next : nextGeneration (completed new old) old = Int64.ofNat count
      ∨ nextGeneration (completed new old) old = Int64.ofNat (count + 1) := by
    simp only [nextGeneration, eq, Option.getD_some, Int64.ofNat_add]
    exact ite_eq_or_eq ..
  refine h.congr (errors_eq_nil.1 (List.append_eq_nil_iff.1 accepted).2).1 ?_ rfl
  rcases next with same | more
  · exact ⟨count, by omega, congrArg some same⟩
  · exact ⟨count + 1, by omega, congrArg some more⟩

theorem statusErrors_canonicalStatus (status : k.Status) (path : FieldPath) :
    k.statusErrors (k.canonicalStatus status) path = k.statusErrors status path := by
  cases k <;> rfl

theorem sound_status (h : old.Sound n)
    (accepted : ((completed new old).prepareUpdate .status old).updateErrors .status old = []) :
    (((completed new old).prepareUpdate .status old).canonicalize .status).Sound n where
  regular := h.regular.congr rfl h.regular.finalizers
  counted := h.counted
  status := by
    have checked := (List.append_eq_nil_iff.1 accepted).2
    unfold statusErrors canonicalize at *
    simpa [Option.map_map, Function.comp_def, statusErrors_canonicalStatus] using checked
  zones := by
    cases k with
    | cluster =>
      intro status observed zones listed
      obtain ⟨given, -, rfl⟩ := Option.map_eq_some_iff.1 observed
      obtain ⟨texts, -, rfl⟩ := Option.map_eq_some_iff.1 listed
      exact (StringSet.ofList texts).ascending
    | dnsRecord => trivial

theorem sound_marked (h : old.Sound n) (now : Instant) {finalizers : List String}
    (regular : ObjectMeta.FinalizersRegular finalizers) :
    (marked now finalizers old).Sound (n + 1) := by
  obtain ⟨count, le, eq⟩ := h.counted
  cases deleting : old.metadata.isDeleting with
  | true =>
    rw [marked_of_deleting deleting]
    exact h.congr (h.regular.congr rfl regular) ⟨count, by omega, eq⟩ rfl
  | false =>
    rw [marked_of_live deleting]
    refine h.congr (h.regular.congr rfl regular) ⟨count + 1, by omega, ?_⟩ rfl
    simp only [mapMeta, eq, Option.getD_some, Int64.ofNat_add]
    rfl

/-- No call stores an object that breaks a rule. -/
theorem sound_invariant : Invariant (k := k) fun n o => o.Sound n where
  later le h := h.later le
  created planned ambient n := sound_created planned ambient (n + 1)
  revised h revises := by
    refine .withVersion ?_ _
    cases revises with
    | main new accepted _ => exact sound_main h accepted
    | status new accepted _ => exact (sound_status h accepted).later (Nat.le_succ _)
    | marked now propagation _ =>
      exact sound_marked h now (finalizersUnder_regular h.regular.finalizers propagation)

/-- After any calls all stored objects are valid, on both sides, and the zones of clusters are in
order. The generation is the one thing that is not checked wherever it grows: it counts in 64 bits,
and is valid as long as there have not been more writes than it can count. -/
theorem stored_valid (policy : WritePolicy) (requests : List (Request k)) :
    let s := after policy (.empty k) requests
    ∀ o ∈ s.toList,
      (o.errors = [] ∨ Int64.maxValue.toInt < s.revision
        ∧ o.errors = o.metadata.generationErrors (.ofField "metadata"))
      ∧ o.statusErrors (.ofField "status") = [] ∧ o.ZonesAscending := by
  intro s o stored
  have sound : o.Sound s.revision := sound_invariant.after policy requests o stored
  refine ⟨?_, sound.status, sound.zones⟩
  by_cases small : s.revision ≤ Int64.maxValue.toInt
  · exact .inl (errors_eq_nil.2 ⟨sound.regular, sound.counted.generationErrors _ small⟩)
  · exact .inr ⟨Int.not_le.1 small, sound.regular.errors⟩

/-- A cluster whose zones are reported in disorder, and which then waits for its deletion. -/
theorem stored_valid_waiting :
    let observed : Object .cluster :=
      { Object.bareCluster "a" with status := some { zones := some ["b", "a", "b"] } }
    let requests := [
      .plain (.create (.bareCluster "a") {}),
      .plain (.update .status observed {}),
      .plain (.delete "a" { propagationPolicy := some .foreground })]
    let s := after {} (.empty .cluster) requests
    ∃ o ∈ s.toList, o.status = some { zones := some ["a", "b"] }
      ∧ o.metadata.finalizers = some [foregroundFinalizer]
      ∧ o.errors = [] ∧ o.statusErrors (.ofField "status") = [] ∧ o.ZonesAscending := by
  intro observed requests s
  have there : ∃ o ∈ s.toList, o.status = some { zones := some ["a", "b"] }
      ∧ o.metadata.finalizers = some [foregroundFinalizer] := by decide +kernel
  have writes : s.revision = 3 := by decide +kernel
  obtain ⟨o, stored, zones, finalizers⟩ := there
  have ⟨errors, statusErrors, ascending⟩ := stored_valid {} requests o stored
  refine ⟨o, stored, zones, finalizers, ?_, statusErrors, ascending⟩
  rcases errors with none | ⟨many, -⟩
  · exact none
  · have few : ¬Int64.maxValue.toInt < (3 : Nat) := by decide
    exact absurd (writes ▸ many) few

end Registry

end FleetRegistry
