import FleetRegistry.Proofs.Store.Journal

/-!
What stands at each place of a store. A write inserts an object at the next free place, puts another
one at the place of its key, or takes one out; all other places stay as they are. So a place belongs
to one object from its creation to its removal, and is never given away again.
-/
namespace FleetRegistry.Store

variable {k : Kind} {s : Store k} {w : Write k}

/-- What a write comes to, as a change of places. -/
inductive Write.Does (s : Store k) : Write k → Outcome (Object k) × Store k → Prop
  | fails {w : Write k} {error : RegistryError} : Does s w (.error error, s)
  | inserts {ambient : Ambient} {fresh : Object k} (absent : s.view fresh.key = none)
    (e : Event k) :
    Does s (.create ambient fresh) (.ok (entered ambient (s.revision + 1) fresh),
      record e (s.inserted (entered ambient (s.revision + 1) fresh)))
  | replaces {final previous : Object k} {place : Nat} (there : (place, previous) ∈ s.objects)
    (key : final.key = previous.key) (e : Event k) :
    Does s (.update final) (.ok (final.withVersion (s.revision + 1)),
      record e (s.replaced place (final.withVersion (s.revision + 1))))
  | removes {ns : Option String} {name : String} {p : Option Preconditions} {o : Object k}
    {place : Nat} (there : (place, o) ∈ s.objects) (key : o.key = .ofAddress k ns name)
    (e : Event k) :
    Does s (.delete ns name p)
      (.ok (o.withVersion (s.revision + 1)), record e (s.removed place o.key))

theorem Indexed.does (h : s.Indexed) (w : Write k) : w.Does s (w.apply s) := by
  cases w with
  | create ambient fresh =>
    simp only [Write.apply]
    rcases create_cases ambient fresh s with ⟨error, eq⟩ | ⟨absent, eq⟩ <;> rw [eq]
    · exact .fails
    · exact .inserts absent _
  | update final =>
    simp only [Write.apply]
    cases there : s.view final.key with
    | none =>
      rw [update_of_none there]
      exact .fails
    | some previous =>
      by_cases current : final.metadata.versionText.isEmpty = true
          ∨ final.metadata.resourceVersion = previous.metadata.resourceVersion
      · obtain ⟨place, mem, eq⟩ := update_of_current h there current
        rw [eq]
        exact .replaces mem (h.view_eq_some_iff.1 there).2.symm _
      · rw [not_or, Bool.not_eq_true] at current
        rw [update_of_stale there current.1 current.2]
        exact .fails
  | delete ns name p =>
    simp only [Write.apply]
    cases there : s.view (.ofAddress k ns name) with
    | none =>
      rw [delete_of_none there]
      exact .fails
    | some o =>
      cases met : checkPreconditions p o with
      | error error =>
        rw [delete_of_refused there met]
        exact .fails
      | ok _ =>
        obtain ⟨place, mem, key, eq⟩ := delete_of_met h there met
        rw [eq]
        exact .removes mem key _

/-! ## Places -/

@[simp] theorem record_nextPlace (e : Event k) (s : Store k) :
    (record e s).nextPlace = s.nextPlace := by
  obtain ⟨_, _, eq⟩ := record_eq e s
  rw [eq]

theorem mem_inserted_objects {o x : Object k} {place : Nat} :
    (place, x) ∈ (s.inserted o).objects
      ↔ (place, x) ∈ s.objects ∨ (place = s.nextPlace ∧ x = o) := by
  simp [inserted]

theorem mem_removed_objects {place p : Nat} {key : ObjectKey} {x : Object k} :
    (p, x) ∈ (s.removed place key).objects ↔ (p, x) ∈ s.objects ∧ p ≠ place := by
  simp [removed]

theorem Indexed.counters (h : s.Indexed) (w : Write k) :
    s.revision ≤ (w.apply s).2.revision ∧ s.nextPlace ≤ (w.apply s).2.nextPlace
      ∧ (w.apply s).2.nextPlace + s.revision ≤ s.nextPlace + (w.apply s).2.revision := by
  have does := h.does w
  generalize w.apply s = result at does
  cases does with
  | fails => simp
  | inserts _ e =>
    simp only [record_revision, record_nextPlace, Store.inserted]
    omega
  | replaces _ _ e =>
    simp only [record_revision, record_nextPlace, Store.replaced]
    omega
  | removes _ _ e =>
    simp only [record_revision, record_nextPlace, Store.removed]
    omega

theorem Indexed.before_at (h : s.Indexed) {place : Nat} {o : Object k}
    (after : (place, o) ∈ (w.apply s).2.objects) (given : place < s.nextPlace) :
    ∃ o', (place, o') ∈ s.objects ∧ o.key = o'.key := by
  have does := h.does w
  generalize w.apply s = result at does after
  cases does with
  | fails => exact ⟨o, after, rfl⟩
  | inserts _ e =>
    rw [record_objects, mem_inserted_objects] at after
    rcases after with before | ⟨rfl, -⟩
    · exact ⟨o, before, rfl⟩
    · exact absurd given (Nat.lt_irrefl _)
  | replaces there key e =>
    rw [record_objects, mem_replaced_objects] at after
    rcases after with ⟨rfl, rfl, -⟩ | ⟨-, before⟩
    · exact ⟨_, there, key⟩
    · exact ⟨o, before, rfl⟩
  | removes _ _ e =>
    rw [record_objects, mem_removed_objects] at after
    exact ⟨o, after.1, rfl⟩

theorem Indexed.apply (h : s.Indexed) (w : Write k) : (w.apply s).2.Indexed := by
  rcases w.apply_cases h with ⟨_, eq⟩ | ⟨e, s', eq, takes⟩ <;> rw [eq]
  · exact h
  · exact takes.indexed.record e

theorem Indexed.after (h : s.Indexed) (writes : List (Write k)) : (s.after writes).Indexed := by
  induction writes generalizing s with
  | nil => exact h
  | cons w rest ih => exact ih (h.apply w)

theorem Indexed.apply_outcome (h : s.Indexed) (w : Write k) :
    (∃ error, w.apply s = (.error error, s))
      ∨ ∃ o, (w.apply s).1 = .ok o ∧ (w.apply s).2.revision = s.revision + 1 := by
  rcases w.apply_cases h with failed | ⟨e, s', eq, takes⟩
  · exact .inl failed
  · rw [eq]
    exact .inr ⟨e.object, rfl, (record_revision ..).trans takes.revisionAfter⟩

theorem Indexed.revision_le_after (h : s.Indexed) (writes : List (Write k)) :
    s.revision ≤ (s.after writes).revision := by
  induction writes generalizing s with
  | nil => exact Nat.le_refl _
  | cons w rest ih => exact (h.counters w).1.trans (ih (h.apply w))

theorem Indexed.after_eq_self_iff (h : s.Indexed) (writes : List (Write k)) :
    s.after writes = s ↔ ∀ w ∈ writes, ∃ error, (w.apply s).1 = .error error := by
  induction writes with
  | nil => simp
  | cons w rest ih =>
    rw [after_cons, List.forall_mem_cons]
    rcases h.apply_outcome w with ⟨error, failed⟩ | ⟨o, written, revision⟩
    · rw [failed, ih]
      exact ⟨fun later => ⟨⟨error, rfl⟩, later⟩, fun both => both.2⟩
    · have grown := (h.apply w).revision_le_after rest
      refine iff_of_false (fun same => ?_) fun both => ?_
      · rw [same] at grown
        omega
      · rw [written] at both
        obtain ⟨⟨error, failed⟩, -⟩ := both
        cases failed

theorem Indexed.after_append_eq_self_iff (h : s.Indexed) (first rest : List (Write k)) :
    s.after (first ++ rest) = s ↔ s.after first = s ∧ s.after rest = s := by
  rw [h.after_eq_self_iff, h.after_eq_self_iff, h.after_eq_self_iff, List.forall_mem_append]

def Write.key : Write k → ObjectKey
  | .create _ o | .update o => o.key
  | .delete ns name _ => .ofAddress k ns name

theorem Indexed.apply_elsewhere (h : s.Indexed) (w : Write k) {key : ObjectKey}
    (other : key ≠ w.key) : (w.apply s).2.view key = s.view key := by
  have does := h.does w
  generalize w.apply s = result at does
  cases does with
  | fails => rfl
  | @inserts ambient fresh absent e =>
    have absent : s.view (entered ambient (s.revision + 1) fresh).key = none := absent
    rw [view_record, h.view_inserted absent]
    exact Function.update_of_ne other _ _
  | @replaces final previous place there same e =>
    have same : (final.withVersion (s.revision + 1)).key = previous.key := same
    rw [view_record, h.view_replaced there same]
    exact Function.update_of_ne other _ _
  | removes there same e =>
    rw [view_record, h.view_removed there, same]
    exact Function.update_of_ne other _ _

theorem Indexed.after_elsewhere (h : s.Indexed) {writes : List (Write k)} {key : ObjectKey}
    (others : ∀ w ∈ writes, key ≠ w.key) : (s.after writes).view key = s.view key := by
  induction writes generalizing s with
  | nil => rfl
  | cons w rest ih =>
    have ⟨first, later⟩ := List.forall_mem_cons.1 others
    rw [after_cons, ih (h.apply w) later, h.apply_elsewhere w first]

/-- A place is one object's own: whatever is written, what stands there later has the same key. -/
theorem Indexed.key_at (h : s.Indexed) {place : Nat} {o o' : Object k}
    (before : (place, o) ∈ s.objects) (writes : List (Write k))
    (after : (place, o') ∈ (s.after writes).objects) : o'.key = o.key := by
  -- From the end: as the place was given out before, each write leaves its key as it was.
  suffices all : (s.after writes).Indexed ∧ s.nextPlace ≤ (s.after writes).nextPlace
      ∧ ∀ o', (place, o') ∈ (s.after writes).objects → o'.key = o.key from all.2.2 o' after
  clear after
  induction writes using List.reverseRecOn with
  | nil => exact ⟨h, Nat.le_refl _, fun o' there => by rw [h.object_unique there before]⟩
  | append_singleton writes w ih =>
    obtain ⟨indexed, grown, kept⟩ := ih
    rw [after_append, after_cons, after_nil]
    have more := (indexed.counters w).2.1
    refine ⟨indexed.apply w, by omega, fun o' there => ?_⟩
    have given := h.below place o before
    obtain ⟨x, stood, key⟩ := indexed.before_at there (by omega)
    exact key.trans (kept x stood)

/-! ## The object under one key -/

/-- Entries with another object under a key, or with none there. Nothing else moves. -/
def placing (key : ObjectKey) (o : Option (Object k)) (entries : List (Nat × Object k)) :
    List (Nat × Object k) :=
  entries.filterMap fun entry =>
    if entry.2.key = key then o.map (entry.1, ·) else some entry

theorem mem_placing {key : ObjectKey} {o : Option (Object k)} {entries : List (Nat × Object k)}
    {place : Nat} {x : Object k} :
    (place, x) ∈ placing key o entries ↔
      (∃ y, (place, y) ∈ entries ∧ y.key = key ∧ o = some x)
        ∨ (place, x) ∈ entries ∧ x.key ≠ key := by
  simp only [placing, List.mem_filterMap, Prod.exists]
  constructor
  · rintro ⟨p, y, mem, eq⟩
    by_cases here : y.key = key
    · rw [if_pos here] at eq
      obtain ⟨z, rfl, eq⟩ := Option.map_eq_some_iff.1 eq
      cases eq
      exact .inl ⟨y, mem, here, rfl⟩
    · rw [if_neg here] at eq
      cases eq
      exact .inr ⟨mem, here⟩
  · rintro (⟨y, mem, here, rfl⟩ | ⟨mem, other⟩)
    · exact ⟨place, y, mem, by simp [here]⟩
    · exact ⟨place, x, mem, by simp [other]⟩

namespace Indexed

theorem place_iff_key (h : s.Indexed) {place : Nat} {o : Object k} (there : (place, o) ∈ s.objects)
    {entry : Nat × Object k} (mem : entry ∈ s.objects) :
    entry.1 = place ↔ entry.2.key = o.key := by
  obtain ⟨p, x⟩ := entry
  constructor
  · rintro rfl
    rw [h.object_unique mem there]
  · intro same
    exact h.place_unique (same ▸ h.indexed p x mem) (h.indexed place o there)

theorem placing_view (h : s.Indexed) (key : ObjectKey) :
    placing key (s.view key) s.objects = s.objects := by
  unfold placing
  refine (List.filterMap_congr fun entry mem => ?_).trans List.filterMap_some
  by_cases here : entry.2.key = key
  · rw [if_pos here, h.view_eq_some_iff.2 ⟨⟨entry.1, mem⟩, here⟩]
    rfl
  · rw [if_neg here]

theorem mem_at_iff (h : s.Indexed) {place : Nat} {old o : Object k}
    (stored : (place, old) ∈ s.objects) : (place, o) ∈ s.objects ↔ some old = some o := by
  rw [Option.some.injEq]
  exact ⟨h.object_unique stored, fun same => same ▸ stored⟩

theorem mem_placing_at (h : s.Indexed) {place : Nat} {old : Object k}
    (stored : (place, old) ∈ s.objects) {key : ObjectKey} {x : Option (Object k)} {o : Object k} :
    (place, o) ∈ placing key x s.objects ↔ (if old.key = key then x else some old) = some o := by
  rw [mem_placing]
  constructor
  · rintro (⟨y, mem, here, rfl⟩ | ⟨mem, other⟩)
    · rw [h.object_unique stored mem, if_pos here]
    · rw [h.object_unique stored mem, if_neg other]
  · intro left
    split at left
    next here => exact .inl ⟨old, stored, here, left⟩
    next other =>
      obtain rfl := Option.some.inj left
      exact .inr ⟨stored, other⟩

theorem replaced_objects (h : s.Indexed) {place : Nat} {old : Object k}
    (there : (place, old) ∈ s.objects) (o : Object k) :
    (s.replaced place o).objects = placing old.key (some o) s.objects := by
  unfold Store.replaced placing
  rw [← List.filterMap_eq_map']
  refine List.filterMap_congr fun entry mem => ?_
  by_cases here : entry.1 = place
  · simp [here, (h.place_iff_key there mem).1 here]
  · simp [here, mt (h.place_iff_key there mem).2 here]

theorem removed_objects (h : s.Indexed) {place : Nat} {old : Object k}
    (there : (place, old) ∈ s.objects) :
    (s.removed place old.key).objects = placing old.key none s.objects := by
  unfold Store.removed placing
  rw [← List.filterMap_eq_filter]
  refine List.filterMap_congr fun entry mem => ?_
  by_cases here : entry.1 = place
  · simp [here, (h.place_iff_key there mem).1 here, Option.guard]
  · simp [here, mt (h.place_iff_key there mem).2 here, Option.guard]

end Indexed

end FleetRegistry.Store
