import FleetRegistry.Proofs.Store.Places

/-!
What each write does to a store. A write fails and changes nothing, or it leaves one event: the
event fits what was held before, carries the next revision as the version of its object, and says
what is held afterwards.
-/
namespace FleetRegistry.Store

variable {k : Kind} {s : Store k}

/-! ## Recording -/

theorem record_eq (e : Event k) (s : Store k) :
    ∃ history compacted, record e s = { s with history, compacted } := by
  unfold record
  split
  next oldest rest _ =>
    by_cases full : s.history.length ≥ historyLimit
    · exact ⟨_, _, if_pos full⟩
    · exact ⟨_, s.compacted, if_neg full⟩
  next => exact ⟨_, s.compacted, rfl⟩

@[simp] theorem record_revision (e : Event k) (s : Store k) :
    (record e s).revision = s.revision := by
  obtain ⟨_, _, eq⟩ := record_eq e s
  rw [eq]

@[simp] theorem record_objects (e : Event k) (s : Store k) :
    (record e s).objects = s.objects := by
  obtain ⟨_, _, eq⟩ := record_eq e s
  rw [eq]

@[simp] theorem view_record (e : Event k) (s : Store k) : (record e s).view = s.view := by
  obtain ⟨_, _, eq⟩ := record_eq e s
  rw [eq]
  rfl

theorem Indexed.record (h : s.Indexed) (e : Event k) : (Store.record e s).Indexed := by
  obtain ⟨_, _, eq⟩ := record_eq e s
  rw [eq]
  exact ⟨h.ascending, h.keysOnce, h.held, h.indexed, h.below⟩

/-! ## What each write does -/

theorem find?_of_view {key : ObjectKey} {o : Object k} (there : s.view key = some o) :
    ∃ place, s.find? key = some (place, o) := by
  simp only [view, Option.map_eq_some_iff] at there
  obtain ⟨⟨place, x⟩, found, rfl⟩ := there
  exact ⟨place, found⟩

theorem create_cases (ambient : Ambient) (o : Object k) (s : Store k) :
    (∃ error, s.create ambient o = (.error error, s)) ∨
      (s.view o.key = none ∧ s.create ambient o =
        (.ok (entered ambient (s.revision + 1) o),
          record ⟨s.revision + 1, .added, entered ambient (s.revision + 1) o⟩
            (s.inserted (entered ambient (s.revision + 1) o)))) := by
  unfold create
  split
  next => exact .inl ⟨_, rfl⟩
  next =>
    split
    next => exact .inl ⟨_, rfl⟩
    next =>
      split
      next => exact .inl ⟨_, rfl⟩
      next fresh =>
        rw [Bool.not_eq_true, Option.isSome_eq_false_iff, Option.isNone_iff_eq_none] at fresh
        exact .inr ⟨by simp [view, find?, fresh], rfl⟩

theorem update_of_none {o : Object k} (absent : s.view o.key = none) :
    s.update o = (.error (missing k o.key.name), s) := by
  have : s.find? o.key = none := by simpa [view] using absent
  simp [update, this]

theorem update_of_stale {o previous : Object k} (there : s.view o.key = some previous)
    (versioned : o.metadata.versionText.isEmpty = false)
    (stale : o.metadata.resourceVersion ≠ previous.metadata.resourceVersion) :
    s.update o = (.error (.conflict k.qualified o.key.name staleMessage), s) := by
  obtain ⟨place, found⟩ := find?_of_view there
  simp [update, found, versioned, stale]

theorem update_of_current (h : s.Indexed) {o previous : Object k}
    (there : s.view o.key = some previous)
    (current : o.metadata.versionText.isEmpty = true
      ∨ o.metadata.resourceVersion = previous.metadata.resourceVersion) :
    ∃ place, (place, previous) ∈ s.objects ∧
      s.update o = (.ok (o.withVersion (s.revision + 1)),
        record ⟨s.revision + 1, .modified previous, o.withVersion (s.revision + 1)⟩
          (s.replaced place (o.withVersion (s.revision + 1)))) := by
  obtain ⟨place, found⟩ := find?_of_view there
  refine ⟨place, (h.find?_eq_some_iff.1 found).1, ?_⟩
  rcases current with unversioned | same
  · simp [update, found, unversioned, replaced]
  · simp [update, found, same, replaced]

theorem delete_of_none {ns : Option String} {name : String} {p : Option Preconditions}
    (absent : s.view (.ofAddress k ns name) = none) :
    s.delete ns name p = (.error (missing k name), s) := by
  have : s.find? (.ofAddress k ns name) = none := by simpa [view] using absent
  simp [delete, this]

theorem delete_of_refused {ns : Option String} {name : String} {p : Option Preconditions}
    {o : Object k} {error : RegistryError} (there : s.view (.ofAddress k ns name) = some o)
    (refused : checkPreconditions p o = .error error) :
    s.delete ns name p = (.error error, s) := by
  obtain ⟨place, found⟩ := find?_of_view there
  simp [delete, found, refused]

theorem delete_of_met (h : s.Indexed) {ns : Option String} {name : String}
    {p : Option Preconditions} {o : Object k} (there : s.view (.ofAddress k ns name) = some o)
    (met : checkPreconditions p o = .ok ()) :
    ∃ place, (place, o) ∈ s.objects ∧ o.key = .ofAddress k ns name ∧
      s.delete ns name p = (.ok (o.withVersion (s.revision + 1)),
        record ⟨s.revision + 1, .deleted, o.withVersion (s.revision + 1)⟩
          (s.removed place o.key)) := by
  obtain ⟨place, found⟩ := find?_of_view there
  have ⟨mem, key⟩ := h.find?_eq_some_iff.1 found
  refine ⟨place, mem, key, ?_⟩
  simp [delete, found, met, removed, key]

/-- A store after an event, before the event is recorded. -/
structure Takes (s : Store k) (e : Event k) (s' : Store k) : Prop where
  fits : e.Fits s.view
  revision : e.revision = s.revision + 1
  version : e.object.metadata.resourceVersion = some (Nat.repr e.revision)
  indexed : s'.Indexed
  view : s'.view = e.onView s.view
  revisionAfter : s'.revision = s.revision + 1
  history : s'.history = s.history
  compacted : s'.compacted = s.compacted

/-- A write fails and leaves the store alone, or it leaves one event. -/
theorem Write.apply_cases (h : s.Indexed) (w : Write k) :
    (∃ error, w.apply s = (.error error, s)) ∨
      ∃ e s', w.apply s = (.ok e.object, record e s') ∧ s.Takes e s' := by
  cases w with
  | create ambient o =>
    rcases create_cases ambient o s with failed | ⟨fresh, eq⟩
    · exact .inl failed
    · right
      let stored := entered ambient (s.revision + 1) o
      have fresh : s.view stored.key = none := fresh
      refine ⟨⟨s.revision + 1, .added, stored⟩, s.inserted stored, eq, ?_⟩
      exact ⟨fresh, rfl, rfl, h.inserted fresh, h.view_inserted fresh, rfl, rfl, rfl⟩
  | update o =>
    cases there : s.view o.key with
    | none => exact .inl ⟨_, update_of_none there⟩
    | some previous =>
      by_cases current : o.metadata.versionText.isEmpty = true
          ∨ o.metadata.resourceVersion = previous.metadata.resourceVersion
      · right
        let stored := o.withVersion (s.revision + 1)
        obtain ⟨place, mem, eq⟩ := update_of_current h there current
        have same : stored.key = previous.key := (h.view_eq_some_iff.1 there).2.symm
        refine ⟨⟨s.revision + 1, .modified previous, stored⟩, s.replaced place stored, eq, ?_⟩
        exact ⟨there, rfl, rfl, h.replaced mem same, h.view_replaced mem same, rfl, rfl, rfl⟩
      · rw [not_or, Bool.not_eq_true] at current
        exact .inl ⟨_, update_of_stale there current.1 current.2⟩
  | delete ns name p =>
    cases there : s.view (.ofAddress k ns name) with
    | none => exact .inl ⟨_, delete_of_none there⟩
    | some o =>
      cases met : checkPreconditions p o with
      | error error => exact .inl ⟨_, delete_of_refused there met⟩
      | ok _ =>
        right
        let last := o.withVersion (s.revision + 1)
        obtain ⟨place, mem, key, eq⟩ := delete_of_met h there met
        refine ⟨⟨s.revision + 1, .deleted, last⟩, s.removed place o.key, eq, ?_⟩
        exact ⟨⟨o, key ▸ there, rfl⟩, rfl, rfl, h.removed mem, h.view_removed mem, rfl, rfl, rfl⟩

end FleetRegistry.Store
