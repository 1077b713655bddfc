import FleetRegistry.Proofs.Object.Written
import FleetRegistry.Proofs.Registry.Incarnations

/-!
Objects that are written back as they were read. Such a write changes nothing and does not count, so
that one who reacts to changes by writing what should be there comes to rest. A patch can fall short
of that. It sends the object through its written form, which has no fractions of seconds and from
which a null is not read back. The instants of its creation and of its deletion are taken from the
stored object again; what its managers lose there is lost.
-/
namespace FleetRegistry

variable {k : Kind}

/-! ## The notes of managers -/

namespace Object

variable {o : Object k}

/-- The object with what is read back of the notes of its managers. -/
def managedAsRead (o : Object k) : Object k :=
  o.mapMeta fun m => { m with managedFields := m.managedFields.map (List.map ManagedFields.asRead) }

/-- The notes of the managers have no fractions of seconds and no sets of fields that are null. -/
def ManagedLasts (o : Object k) : Prop := ∀ f ∈ o.metadata.managedFields.getD [], f.Lasts

theorem managedAsRead_eq_self : o.managedAsRead = o ↔ o.ManagedLasts := by
  rw [ManagedLasts, ← ManagedFields.map_asRead]
  obtain ⟨⟨⟩, _, _⟩ := o
  simp [managedAsRead, mapMeta]

theorem managedAsRead_regular (h : o.Regular) : o.managedAsRead.Regular :=
  h.congr rfl h.finalizers

theorem canonicalize_status (h : o.ZonesAscending) : o.canonicalize .status = o := by
  cases k with
  | cluster =>
    obtain ⟨_, _, status⟩ := o
    cases status with
    | none => rfl
    | some status =>
      have same : ClusterStatus.canonical status = status := by
        obtain ⟨_, zones, _⟩ := status
        cases zones with
        | none => rfl
        | some zones =>
          have ascending : zones.Pairwise (· < ·) := h _ rfl zones rfl
          simp [ClusterStatus.canonical, StringSet.elements_ofList ascending]
      simp [canonicalize, Kind.canonicalStatus, same]
  | dnsRecord =>
    obtain ⟨_, _, status⟩ := o
    cases status <;> rfl

end Object

/-! ## Patches that ask for nothing -/

def PatchType.blank : PatchType → Json
  | operations => .arr []
  | merge | strategic => .obj []

theorem Patch.apply_blank (keys : List (String × String)) (type : PatchType)
    (members : Json.Members) :
    Patch.apply keys type type.blank (.obj members) = .ok (.obj members) := by
  cases type with
  | operations => rfl
  | merge => simp [apply, PatchType.blank, Json.isObject, merge, mergeAll, Json.members?]
  | strategic =>
    simp [apply, PatchType.blank, Json.isObject, asksToDelete, strategic, strategicMembers,
      directive?, Json.Members.find?, Json.members?, Except.map]

/-- The part of an object that a side is patched under. -/
def WriteSide.subresource? : WriteSide → Option String
  | main => none
  | status => some statusSubresource

namespace Registry

open Object

variable {policy : WritePolicy} {ambient : Ambient} {side : WriteSide} {ns space : Option String}
  {name : String} {dryRun : Bool} {s : Store k} {o : Object k}

theorem patched_blank (type : PatchType) (subresource : Option String) (o : Object k) :
    patched ⟨type, type.blank, subresource⟩ o = .ok o.asRead := by
  have same : Patch.apply k.mergeKeys type type.blank o.toJson = .ok o.toJson :=
    Patch.apply_blank _ _ _
  simp only [patched, same, Object.readsBack.read]

/-- How an object is written back: as it was read, or by a patch that asks for nothing. -/
inductive Echo where
  | object
  | patch (type : PatchType)

namespace Echo

variable {echo : Echo}

def call (name : String) (o : Object k) (side : WriteSide) (options : WriteOptions) :
    Echo → Call k
  | object => .update side o options
  | patch type => .patch name ⟨type, type.blank, side.subresource?⟩ options

def submitted (o : Object k) : Echo → Object k
  | object => o
  | patch _ => o.asRead

def intended (o : Object k) : Echo → Object k
  | object => o
  | patch _ => o.managedAsRead

theorem intended_eq_self : echo.intended o = o ↔ echo = .object ∨ o.ManagedLasts := by
  cases echo with
  | object => simp [intended]
  | patch type => simp [intended, managedAsRead_eq_self]

theorem completed_submitted : completed (echo.submitted o) o = echo.intended o := by
  have kept (stored : Option Instant) : stored.or (stored.map Instant.wholeSecond) = stored := by
    cases stored <;> rfl
  obtain ⟨⟨⟩, _, _⟩ := o
  cases echo <;>
    simp [completed, submitted, intended, asRead, managedAsRead, ObjectMeta.asRead,
      mapMeta, ObjectMeta.versionText, ObjectMeta.uidText, kept]

theorem intended_regular (h : o.Regular) : (echo.intended o).Regular := by
  cases echo with
  | object => exact h
  | patch type => exact managedAsRead_regular h

/-! ## What is planned -/

theorem checkVersion_submitted (versioned : o.metadata.versionText ≠ "") :
    checkVersion policy name (echo.submitted o) o = .ok () :=
  checkVersion_of_mayName name versioned (.inr (by cases echo <;> rfl))

theorem prepared_main {n : Nat} (counted : o.Counted n) :
    (echo.intended o).prepareUpdate .main o = echo.intended o := by
  obtain ⟨count, -, generation⟩ := counted
  obtain ⟨⟨⟩, _, _⟩ := o
  cases generation
  cases echo <;> simp [intended, managedAsRead, mapMeta, prepareUpdate, nextGeneration]

theorem updateErrors_main (regular : o.Regular) :
    (echo.intended o).updateErrors .main o
      = o.metadata.generationErrors (.ofField "metadata") := by
  have kept : (echo.intended o).metadata.updateErrors o.metadata (.ofField "metadata") = [] :=
    ObjectMeta.updateErrors_eq_nil_iff.2 (by cases echo <;> exact ⟨rfl, rfl, rfl, rfl, id⟩)
  have rest : (echo.intended o).errors = o.metadata.generationErrors (.ofField "metadata") :=
    (intended_regular regular).errors.trans (by cases echo <;> rfl)
  simp only [updateErrors, kept, rest, List.nil_append]

theorem planUpdate_main {n : Nat} (sound : o.Sound n) (versioned : o.metadata.versionText ≠ "") :
    planUpdate policy .main name (echo.submitted o) o
      = if (o.metadata.generationErrors (.ofField "metadata")).isEmpty then
          .ok (planChange (echo.intended o) o)
        else .error (invalid k name (o.metadata.generationErrors (.ofField "metadata"))) := by
  simp only [planUpdate, checkVersion_submitted versioned, completed_submitted,
    prepared_main sound.counted, updateErrors_main sound.regular, canonicalize]

theorem planUpdate_status {n : Nat} (sound : o.Sound n) (versioned : o.metadata.versionText ≠ "") :
    planUpdate policy .status name (echo.submitted o) o = .ok (.keep o) := by
  have prepared : (completed (echo.submitted o) o).prepareUpdate .status o = o := by
    rw [completed_submitted]
    cases echo <;> rfl
  have kept : o.metadata.updateErrors o.metadata (.ofField "metadata") = [] :=
    ObjectMeta.updateErrors_eq_nil_iff.2 ⟨rfl, rfl, rfl, rfl, id⟩
  simp [planUpdate, checkVersion_submitted versioned, prepared, updateErrors, kept, sound.status,
    canonicalize_status sound.zones, planChange]

theorem planChange_intended (stays : MayStay o) :
    planChange (echo.intended o) o
      = if echo.intended o = o then .keep o else .put (echo.intended o) := by
  have stays : ¬((echo.intended o).metadata.isDeleting
      && (echo.intended o).metadata.finalizerList.isEmpty) = true := by
    rw [Bool.and_eq_true, List.isEmpty_iff]
    rintro ⟨deleting, none⟩
    cases echo <;> exact stays deleting none
  rw [planChange, if_neg stays]

end Echo

/-! ## What is done -/

theorem scope_eq_ok :
    scope k ns = .ok space ↔ (k.namespaced = true → ns.getD "" ≠ "")
      ∧ space = if k.namespaced then ns else none := by
  unfold scope
  cases k.namespaced with
  | false =>
    constructor
    · rintro ⟨⟩
      exact ⟨nofun, rfl⟩
    · rintro ⟨-, rfl⟩
      rfl
  | true =>
    cases ns with
    | none => simp
    | some given =>
      cases empty : given.isEmpty with
      | true => simp [Option.filter, String.isEmpty_iff.1 empty]
      | false =>
        have given' : given ≠ "" := fun eq => by simp [eq] at empty
        have filtered : (some given).filter (!·.isEmpty) = some given := by
          simp [Option.filter, empty]
        simp [filtered, given', eq_comm (b := space)]

theorem scope_of_key (inScope : scope k ns = .ok space) (key : o.key = .ofAddress k space name) :
    scope k o.metadata.ns = .ok space := by
  obtain ⟨given, rfl⟩ := scope_eq_ok.1 inScope
  refine scope_eq_ok.2 ?_
  cases namespaced : k.namespaced with
  | false => simp
  | true =>
    have same : o.metadata.ns.getD "" = ns.getD "" := by
      have spaces := congrArg ObjectKey.ns key
      simpa [Object.key, ObjectKey.ofAddress, namespaced] using spaces
    have equal : o.metadata.ns = ns := eq_of_texts same (given namespaced)
    simpa [equal] using given namespaced

theorem updateAt_of_there (named : name ≠ "")
    (there : s.view (.ofAddress k space name) = some o) (ambient : Ambient) (new : Object k) :
    updateAt policy ambient side space name dryRun new s
      = match planUpdate policy side name new o with
        | .error error => (.error error, s)
        | .ok plan => plan.conclude dryRun space name s := by
  cases planned : planUpdate policy side name new o <;>
    simp [updateAt, named, Store.get_eq_ok.2 there, planned]

/-- An object that is stored at an address, in a store as calls leave it. -/
structure Stored (s : Store k) (space : Option String) (name : String) (o : Object k) : Prop where
  orderly : s.Orderly
  there : s.view (.ofAddress k space name) = some o
  named : name ≠ ""
  versioned : o.metadata.versionText ≠ ""
  sound : o.Sound s.revision
  stays : MayStay o

theorem stored_after {requests : List (Request k)}
    (there : (after policy (.empty k) requests).view (.ofAddress k space name) = some o) :
    Stored (after policy (.empty k) requests) space name o := by
  have orderly := orderly_after (k := k) policy requests
  obtain ⟨log, remembers⟩ := orderly.journal
  obtain ⟨⟨place, mem⟩, key⟩ := orderly.indexed.view_eq_some_iff.1 there
  obtain ⟨n, -, -, version⟩ := remembers.consistent.versioned place o mem
  have listed : o ∈ (after policy (.empty k) requests).toList := List.mem_map_of_mem mem
  have own : o.IsNamed := orderly.named _ _ there
  have named : name ≠ "" := by
    have ownName : o.anyName = name := congrArg ObjectKey.name key
    exact ownName ▸ (anyName_of_named own).trans_ne own
  exact {
    orderly, there, named
    versioned := by simp [ObjectMeta.versionText, version, Nat.repr_ne_empty]
    sound := sound_invariant.after policy requests o listed
    stays := mayStay_invariant.after policy requests o listed }

/-- Writing an object back is an update under the address under which it was read. -/
theorem perform_echo (stored : Stored s space name o) (inScope : scope k ns = .ok space)
    (echo : Echo) (options : WriteOptions) :
    perform policy ambient ns (echo.call name o side options) s
      = answering .object (match planUpdate policy side name (echo.submitted o) o with
        | .error error => (.error error, s)
        | .ok plan => plan.conclude options.dryRun space name s) := by
  have there := stored.there
  have key : o.key = .ofAddress k space name :=
    (stored.orderly.indexed.view_eq_some_iff.1 there).2
  have ownName : o.anyName = name := congrArg ObjectKey.name key
  rw [← updateAt_of_there stored.named there ambient]
  cases echo with
  | object =>
    simp only [Echo.call, perform, update, scope_of_key inScope key, ownName, Echo.submitted]
  | patch type =>
    have sided : PatchRequest.side ⟨type, type.blank, side.subresource?⟩ = .ok side := by
      cases side <;> rfl
    simp only [Echo.call, perform, patch, inScope, sided, patchAt, Store.get_eq_ok.2 there,
      patched_blank, Echo.submitted]

section

variable {echo : Echo} (stored : Stored s space name o)
  (inScope : scope k ns = .ok space)

include stored inScope

theorem echo_status (policy : WritePolicy) (ambient : Ambient) (options : WriteOptions) :
    perform policy ambient ns (echo.call name o .status options) s = (.ok (.object o), s) := by
  rw [perform_echo stored inScope, Echo.planUpdate_status stored.sound stored.versioned]
  cases options.dryRun <;> rfl

theorem echo_main_refused (policy : WritePolicy) (ambient : Ambient) (options : WriteOptions)
    (negative : o.metadata.generationErrors (.ofField "metadata") ≠ []) :
    ∃ error,
      perform policy ambient ns (echo.call name o .main options) s = (.error error, s) := by
  rw [perform_echo stored inScope, Echo.planUpdate_main stored.sound stored.versioned,
    if_neg (by simpa using negative)]
  exact ⟨_, rfl⟩

theorem echo_main (policy : WritePolicy) (ambient : Ambient) (options : WriteOptions)
    (valid : o.metadata.generationErrors (.ofField "metadata") = []) :
    perform policy ambient ns (echo.call name o .main options) s
      = answering .object
        ((planChange (echo.intended o) o).conclude options.dryRun space name s) := by
  rw [perform_echo stored inScope, Echo.planUpdate_main stored.sound stored.versioned,
    if_pos (by simpa using valid)]

theorem echo_main_put (policy : WritePolicy) (ambient : Ambient) (options : WriteOptions)
    (valid : o.metadata.generationErrors (.ofField "metadata") = [])
    (other : echo.intended o ≠ o) :
    ∃ result, Concludes options.dryRun (.put (echo.intended o)) o s result
      ∧ perform policy ambient ns (echo.call name o .main options) s
        = answering .object result := by
  have based : (Plan.put (echo.intended o)).BasedOn o := by
    have own : o.IsNamed := stored.orderly.named _ _ stored.there
    cases echo <;> exact ⟨own, rfl, rfl⟩
  refine ⟨_, conclude_concludes stored.orderly.indexed stored.there based, ?_⟩
  rw [echo_main stored inScope policy ambient options valid,
    Echo.planChange_intended stored.stays, if_neg other]

theorem echo_main_kept_iff (policy : WritePolicy) (ambient : Ambient) (options : WriteOptions)
    (valid : o.metadata.generationErrors (.ofField "metadata") = []) :
    perform policy ambient ns (echo.call name o .main options) s = (.ok (.object o), s)
      ↔ echo.intended o = o := by
  by_cases same : echo.intended o = o
  · rw [echo_main stored inScope policy ambient options valid,
      Echo.planChange_intended stored.stays, if_pos same]
    exact iff_of_true (by cases options.dryRun <;> rfl) same
  · refine iff_of_false (fun kept => ?_) same
    obtain ⟨result, concludes, eq⟩ := echo_main_put stored inScope policy ambient options valid same
    have ⟨answer, store⟩ := Prod.mk.inj (eq.symm.trans kept)
    -- The answer of a dry run would be the other object; any other run would count.
    cases tried : options.dryRun with
    | true => simp [concludes.answer, tried, Except.map, Plan.object, same] at answer
    | false =>
      have counted := concludes.revision
      simp [store, tried, Plan.writes] at counted

end

theorem get_eq_ok {s : Store k} :
    get ns name s = .ok o
      ↔ ∃ space, scope k ns = .ok space ∧ s.view (.ofAddress k space name) = some o := by
  unfold get
  cases scope k ns <;> simp [Store.get_eq_ok]

/-- Writing an object back as it was read answers that object and leaves the store alone, with two
exceptions, both about the declared side. A patch that asks for nothing writes the object again if
the notes of its managers do not last: it cuts off the fractions of their instants, and drops sets
of fields that are null. And the rules are checked again: they refuse a generation that has become
negative, which takes more writes than 64 bits count. -/
theorem read_back_kept_iff (policy : WritePolicy) (requests : List (Request k)) (ambient : Ambient)
    (ns : Option String) (name : String) (echo : Echo) (side : WriteSide) (options : WriteOptions)
    {o : Object k} :
    let s := after policy (.empty k) requests
    let result := perform policy ambient ns (echo.call name o side options) s
    let valid := o.metadata.generationErrors (.ofField "metadata") = []
    get ns name s = .ok o →
    (result = (.ok (.object o), s)
      ↔ side = .status ∨ valid ∧ (echo = .object ∨ o.ManagedLasts))
    ∧ (s.revision ≤ Int64.maxValue.toInt → valid)
    ∧ (side = .main → valid → echo ≠ .object → ¬o.ManagedLasts → options.dryRun = false →
      result.1 = .ok (.object (o.managedAsRead.withVersion (s.revision + 1)))
      ∧ result.2.revision = s.revision + 1) := by
  intro s result valid read
  obtain ⟨space, inScope, there⟩ := get_eq_ok.1 read
  have stored : Stored s space name o := stored_after there
  refine ⟨?_, stored.sound.counted.generationErrors _, ?_⟩
  · cases side with
    | status => exact iff_of_true (echo_status stored inScope policy ambient options) (.inl rfl)
    | main =>
      by_cases ok : valid
      · rw [← Echo.intended_eq_self]
        simpa [ok] using echo_main_kept_iff stored inScope policy ambient options ok
      · obtain ⟨error, refused⟩ := echo_main_refused stored inScope policy ambient options ok
        refine iff_of_false (fun kept => ?_) (by simp [ok])
        cases kept.symm.trans refused
  · rintro rfl ok patched lost persistent
    have other : echo.intended o ≠ o :=
      mt Echo.intended_eq_self.1 (not_or.2 ⟨patched, lost⟩)
    obtain ⟨written, concludes, eq⟩ :=
      echo_main_put stored inScope policy ambient options ok other
    have eq : result = answering .object written := eq
    rw [eq]
    cases echo with
    | object => exact absurd rfl patched
    | patch type =>
      have answer := concludes.answer
      have revision := concludes.revision
      simp only [persistent] at answer revision
      refine ⟨?_, revision⟩
      rw [answering, answer]
      rfl

def halfPast : Instant where
  seconds := 1577836800
  nanos := ⟨500000000, by decide⟩

/-- A store with one cluster, that a manager has last written between two seconds. -/
def managedStore : Store .cluster :=
  after {} (.empty .cluster) [.plain (.create
    ((Object.bareCluster "a").mapMeta fun m => { m with
      managedFields := some [{ manager := some "m", time := some halfPast }] }) {})]

/-- The cluster stays if it is updated as it was read, or patched by nothing on its observed side;
patched by nothing on the other side, it is written again. -/
theorem read_back_kept_iff_managed :
    ∃ o, get none "a" managedStore = .ok o
      ∧ (∀ side, perform {} .plain none (.update side o {}) managedStore
        = (.ok (.object o), managedStore))
      ∧ perform {} .plain none (.patch "a" ⟨.merge, .obj [], some statusSubresource⟩ {})
          managedStore
        = (.ok (.object o), managedStore)
      ∧ (perform {} .plain none (.patch "a" ⟨.merge, .obj [], none⟩ {})
          managedStore).2.revision = 2 := by
  have found : (get none "a" managedStore).toOption.map (·.metadata.managedFields)
      = some (some [{ manager := some "m", time := some halfPast }]) := by decide +kernel
  have writes : managedStore.revision = 1 := by decide +kernel
  obtain ⟨o, read, managed⟩ := Option.map_eq_some_iff.1 found
  have read : get none "a" managedStore = .ok o := Outcome.toOption_eq_some.1 read
  have fraction : ¬o.ManagedLasts := by
    intro lasts
    rw [ManagedLasts, managed] at lasts
    exact absurd ((lasts _ List.mem_cons_self).whole halfPast rfl) (by decide)
  have back (echo : Echo) (side : WriteSide) :=
    read_back_kept_iff {} _ .plain none "a" echo side {} read
  have valid := (back .object .main).2.1 (by rw [← managedStore, writes]; decide)
  have written := ((back (.patch .merge) .main).2.2 rfl valid (by simp) fraction rfl).2
  refine ⟨o, read, fun side => ?_, (back (.patch .merge) .status).1.2 (.inl rfl), ?_⟩
  · exact (back .object side).1.2 (.inr ⟨valid, .inl rfl⟩)
  · exact written.trans (congrArg (· + 1) writes)

/-- Patches that ask for nothing take a revision and leave an event. -/
theorem patch_of_nothing_writes :
    managedStore.toList.map (·.metadata.resourceVersion) = [some "1"]
      ∧ managedStore.history.length = 1
      ∧ ∀ type : PatchType,
        let patched :=
          (perform {} .plain none (.patch "a" ⟨type, type.blank, none⟩ {}) managedStore).2
        patched.toList.map (·.metadata.resourceVersion) = [some "2"]
          ∧ patched.history.length = 2 := by
  refine ⟨by decide +kernel, by decide +kernel, fun type => ?_⟩
  cases type <;> decide +kernel

end Registry

end FleetRegistry
