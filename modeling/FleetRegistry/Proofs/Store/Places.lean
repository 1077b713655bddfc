import FleetRegistry.Proofs.Store.Writes
import Mathlib.Data.List.Nodup

/-!
Where a store keeps its objects. Index and objects are two lists that belong together; creating,
updating and deleting change both of them in step, and each is one change of the view.
-/
namespace FleetRegistry.Store

variable {k : Kind}

/-- The index and the objects belong together: each key leads to the place of its object, and each
object is found under its key. -/
structure Indexed (s : Store k) : Prop where
  ascending : (s.objects.map (·.1)).Pairwise (· < ·)
  keysOnce : (s.index.map (·.1)).Nodup
  held : ∀ key place, (key, place) ∈ s.index → ∃ o, (place, o) ∈ s.objects ∧ o.key = key
  indexed : ∀ place o, (place, o) ∈ s.objects → (o.key, place) ∈ s.index
  below : ∀ place o, (place, o) ∈ s.objects → place < s.nextPlace

theorem lookup_eq_some_iff_mem {α β : Type} [DecidableEq α] {l : List (α × β)}
    (once : (l.map (·.1)).Nodup) {a : α} {b : β} : l.lookup a = some b ↔ (a, b) ∈ l := by
  induction l with
  | nil => simp
  | cons head rest ih =>
    obtain ⟨a', b'⟩ := head
    have ⟨fresh, once⟩ := List.nodup_cons.1 once
    by_cases h : a = a'
    · subst h
      have absent : (a, b) ∉ rest := fun mem => fresh (List.mem_map.2 ⟨(a, b), mem, rfl⟩)
      simp [absent, eq_comm]
    · rw [List.lookup_cons, beq_false_of_ne h]
      simp [h, ih once]

theorem value_unique {α β : Type} {l : List (α × β)} (once : (l.map (·.1)).Nodup) {a : α}
    {b b' : β} (mem : (a, b) ∈ l) (mem' : (a, b') ∈ l) : b = b' :=
  (Prod.mk.inj (List.inj_on_of_nodup_map once mem mem' rfl)).2

namespace Indexed

variable {s : Store k}

theorem placesOnce (h : s.Indexed) : (s.objects.map (·.1)).Nodup :=
  h.ascending.imp Nat.ne_of_lt

theorem object_unique (h : s.Indexed) {place : Nat} {o o' : Object k}
    (mem : (place, o) ∈ s.objects) (mem' : (place, o') ∈ s.objects) : o = o' :=
  value_unique h.placesOnce mem mem'

theorem place_unique (h : s.Indexed) {key : ObjectKey} {place place' : Nat}
    (mem : (key, place) ∈ s.index) (mem' : (key, place') ∈ s.index) : place = place' :=
  value_unique h.keysOnce mem mem'

theorem find?_eq_some_iff (h : s.Indexed) {key : ObjectKey} {place : Nat} {o : Object k} :
    s.find? key = some (place, o) ↔ (place, o) ∈ s.objects ∧ o.key = key := by
  have unfolded : s.find? key = some (place, o)
      ↔ s.index.lookup key = some place ∧ s.objects.lookup place = some o := by
    simp only [find?, Option.bind_eq_bind, Option.bind_eq_some_iff, Option.pure_def]
    constructor
    · rintro ⟨p, hp, o', ho, eq⟩
      cases eq
      exact ⟨hp, ho⟩
    · rintro ⟨hp, ho⟩
      exact ⟨place, hp, o, ho, rfl⟩
  rw [unfolded, lookup_eq_some_iff_mem h.keysOnce, lookup_eq_some_iff_mem h.placesOnce]
  constructor
  · rintro ⟨hi, ho⟩
    obtain ⟨o', ho', rfl⟩ := h.held key place hi
    exact ⟨ho, h.object_unique ho ho' ▸ rfl⟩
  · rintro ⟨ho, rfl⟩
    exact ⟨h.indexed place o ho, ho⟩

theorem view_eq_some_iff (h : s.Indexed) {key : ObjectKey} {o : Object k} :
    s.view key = some o ↔ (∃ place, (place, o) ∈ s.objects) ∧ o.key = key := by
  simp only [view, Option.map_eq_some_iff, Prod.exists]
  constructor
  · rintro ⟨place, o', found, rfl⟩
    have ⟨mem, eq⟩ := h.find?_eq_some_iff.1 found
    exact ⟨⟨place, mem⟩, eq⟩
  · rintro ⟨⟨place, mem⟩, eq⟩
    exact ⟨place, o, h.find?_eq_some_iff.2 ⟨mem, eq⟩, rfl⟩

theorem view_of_mem (h : s.Indexed) {place : Nat} {o : Object k} (mem : (place, o) ∈ s.objects) :
    s.view o.key = some o :=
  h.view_eq_some_iff.2 ⟨⟨place, mem⟩, rfl⟩

end Indexed

/-! ## The three changes of what is held -/

def inserted (o : Object k) (s : Store k) : Store k :=
  { s with
    revision := s.revision + 1
    nextPlace := s.nextPlace + 1
    objects := s.objects ++ [(s.nextPlace, o)]
    index := (o.key, s.nextPlace) :: s.index }

def replaced (place : Nat) (o : Object k) (s : Store k) : Store k :=
  { s with
    revision := s.revision + 1
    objects := s.objects.map fun entry => if entry.1 = place then (place, o) else entry }

def removed (place : Nat) (key : ObjectKey) (s : Store k) : Store k :=
  { s with
    revision := s.revision + 1
    objects := s.objects.filter fun entry => entry.1 ≠ place
    index := s.index.filter fun entry => entry.1 ≠ key }

theorem mem_replaced_objects {place : Nat} {o : Object k} {s : Store k} {p : Nat} {x : Object k} :
    (p, x) ∈ (s.replaced place o).objects
      ↔ (p = place ∧ x = o ∧ ∃ y, (place, y) ∈ s.objects) ∨ (p ≠ place ∧ (p, x) ∈ s.objects) := by
  simp only [replaced, List.mem_map, Prod.exists]
  constructor
  · rintro ⟨q, y, mem, eq⟩
    split at eq
    next same =>
      cases eq
      subst same
      exact .inl ⟨rfl, rfl, y, mem⟩
    next other =>
      cases eq
      exact .inr ⟨other, mem⟩
  · rintro (⟨rfl, rfl, y, mem⟩ | ⟨other, mem⟩)
    · exact ⟨p, y, mem, by simp⟩
    · exact ⟨p, x, mem, by simp [other]⟩

@[simp] theorem map_fst_replaced (place : Nat) (o : Object k) (s : Store k) :
    (s.replaced place o).objects.map (·.1) = s.objects.map (·.1) := by
  simp only [replaced, List.map_map]
  refine List.map_congr_left fun entry _ => ?_
  by_cases h : entry.1 = place <;> simp [h]

namespace Indexed

variable {s : Store k}

theorem view_eq_none_iff (h : s.Indexed) {key : ObjectKey} :
    s.view key = none ↔ ∀ place, (key, place) ∉ s.index := by
  constructor
  · intro absent place mem
    obtain ⟨o, held, eq⟩ := h.held key place mem
    have : s.view key = some o := h.view_eq_some_iff.2 ⟨⟨place, held⟩, eq⟩
    simp [absent] at this
  · intro absent
    rw [Option.eq_none_iff_forall_not_mem]
    intro o mem
    obtain ⟨⟨place, held⟩, rfl⟩ := h.view_eq_some_iff.1 mem
    exact absent place (h.indexed place o held)

theorem inserted (h : s.Indexed) {o : Object k} (fresh : s.view o.key = none) :
    (s.inserted o).Indexed where
  ascending := by
    simp only [Store.inserted, List.map_append, List.map_cons, List.map_nil]
    refine List.pairwise_append.2 ⟨h.ascending, List.pairwise_singleton _ _, ?_⟩
    intro place mem next mem'
    obtain ⟨⟨p, x⟩, held, rfl⟩ := List.mem_map.1 mem
    rw [List.mem_singleton.1 mem']
    exact h.below p x held
  keysOnce := by
    refine List.nodup_cons.2 ⟨fun mem => ?_, h.keysOnce⟩
    obtain ⟨⟨key, place⟩, mem, eq⟩ := List.mem_map.1 mem
    have eq : key = o.key := eq
    exact h.view_eq_none_iff.1 fresh place (eq ▸ mem)
  held := by
    intro key place mem
    rcases List.mem_cons.1 mem with eq | mem
    · cases eq
      exact ⟨o, List.mem_append_right _ (List.mem_singleton.2 rfl), rfl⟩
    · obtain ⟨x, held, eq⟩ := h.held key place mem
      exact ⟨x, List.mem_append_left _ held, eq⟩
  indexed := by
    intro place x mem
    rcases List.mem_append.1 mem with mem | mem
    · exact List.mem_cons_of_mem _ (h.indexed place x mem)
    · cases List.mem_singleton.1 mem
      exact List.mem_cons_self
  below := by
    intro place x mem
    rcases List.mem_append.1 mem with mem | mem
    · exact Nat.lt_succ_of_lt (h.below place x mem)
    · cases List.mem_singleton.1 mem
      exact Nat.lt_succ_self _

theorem replaced (h : s.Indexed) {place : Nat} {o previous : Object k}
    (there : (place, previous) ∈ s.objects) (same : o.key = previous.key) :
    (s.replaced place o).Indexed where
  ascending := by simpa using h.ascending
  keysOnce := h.keysOnce
  held := by
    intro key p mem
    obtain ⟨x, held, eq⟩ := h.held key p mem
    by_cases here : p = place
    · subst here
      have : x = previous := h.object_unique held there
      exact ⟨o, mem_replaced_objects.2 (.inl ⟨rfl, rfl, x, held⟩), by rw [same, ← this, eq]⟩
    · exact ⟨x, mem_replaced_objects.2 (.inr ⟨here, held⟩), eq⟩
  indexed := by
    intro p x mem
    rcases mem_replaced_objects.1 mem with ⟨rfl, rfl, -⟩ | ⟨-, mem⟩
    · exact same ▸ h.indexed p previous there
    · exact h.indexed p x mem
  below := by
    intro p x mem
    rcases mem_replaced_objects.1 mem with ⟨rfl, rfl, -⟩ | ⟨-, mem⟩
    · exact h.below p previous there
    · exact h.below p x mem

theorem removed (h : s.Indexed) {place : Nat} {o : Object k} (there : (place, o) ∈ s.objects) :
    (s.removed place o.key).Indexed where
  ascending := h.ascending.sublist (List.filter_sublist.map _)
  keysOnce := h.keysOnce.sublist (List.filter_sublist.map _)
  held := by
    intro key p mem
    have ⟨mem, other⟩ := List.mem_filter.1 mem
    obtain ⟨x, held, rfl⟩ := h.held key p mem
    refine ⟨x, List.mem_filter.2 ⟨held, ?_⟩, rfl⟩
    have : p ≠ place := by
      rintro rfl
      simp [h.object_unique held there] at other
    simpa using this
  indexed := by
    intro p x mem
    have ⟨mem, other⟩ := List.mem_filter.1 mem
    refine List.mem_filter.2 ⟨h.indexed p x mem, ?_⟩
    have : x.key ≠ o.key := by
      intro eq
      have : p = place :=
        h.place_unique (eq ▸ h.indexed p x mem) (h.indexed place o there)
      simp [this] at other
    simpa using this
  below := fun p x mem => h.below p x (List.mem_filter.1 mem).1

/-! What the three changes make of the view. -/

theorem view_inserted (h : s.Indexed) {o : Object k} (fresh : s.view o.key = none) :
    (s.inserted o).view = Function.update s.view o.key (some o) := by
  have after := h.inserted fresh
  funext key
  refine Option.ext fun x => ?_
  rw [after.view_eq_some_iff]
  by_cases eq : key = o.key
  · subst eq
    rw [Function.update_self, Option.some.injEq]
    constructor
    · rintro ⟨⟨place, mem⟩, eq⟩
      rcases List.mem_append.1 mem with mem | mem
      · have : s.view o.key = some x := h.view_eq_some_iff.2 ⟨⟨place, mem⟩, eq⟩
        simp [fresh] at this
      · cases List.mem_singleton.1 mem
        rfl
    · rintro rfl
      exact ⟨⟨s.nextPlace, List.mem_append_right _ (List.mem_singleton.2 rfl)⟩, rfl⟩
  · rw [Function.update_of_ne eq, h.view_eq_some_iff]
    refine and_congr_left fun here => exists_congr fun place => ?_
    have : x ≠ o := fun same => eq (here ▸ same ▸ rfl)
    simp [Store.inserted, this]

theorem view_replaced (h : s.Indexed) {place : Nat} {o previous : Object k}
    (there : (place, previous) ∈ s.objects) (same : o.key = previous.key) :
    (s.replaced place o).view = Function.update s.view o.key (some o) := by
  have after := h.replaced there same
  funext key
  refine Option.ext fun x => ?_
  rw [after.view_eq_some_iff]
  by_cases eq : key = o.key
  · subst eq
    rw [Function.update_self, Option.some.injEq]
    constructor
    · rintro ⟨⟨p, mem⟩, eq⟩
      rcases mem_replaced_objects.1 mem with ⟨-, rfl, -⟩ | ⟨other, mem⟩
      · rfl
      · have here := h.indexed p x mem
        rw [eq, same] at here
        exact absurd (h.place_unique here (h.indexed place previous there)) other
    · rintro rfl
      exact ⟨⟨place, mem_replaced_objects.2 (.inl ⟨rfl, rfl, previous, there⟩)⟩, rfl⟩
  · rw [Function.update_of_ne eq, h.view_eq_some_iff]
    refine and_congr_left fun here => exists_congr fun p => ?_
    rw [mem_replaced_objects]
    have : x ≠ o := fun same => eq (here ▸ same ▸ rfl)
    constructor
    · rintro (⟨-, rfl, -⟩ | ⟨-, mem⟩)
      · exact absurd rfl this
      · exact mem
    · intro mem
      refine .inr ⟨?_, mem⟩
      rintro rfl
      exact eq (by rw [← here, same, h.object_unique mem there])

theorem view_removed (h : s.Indexed) {place : Nat} {o : Object k}
    (there : (place, o) ∈ s.objects) :
    (s.removed place o.key).view = Function.update s.view o.key none := by
  have after := h.removed there
  funext key
  refine Option.ext fun x => ?_
  rw [after.view_eq_some_iff]
  by_cases eq : key = o.key
  · subst eq
    rw [Function.update_self]
    simp only [reduceCtorEq, iff_false]
    rintro ⟨⟨p, mem⟩, eq⟩
    have ⟨mem, other⟩ := List.mem_filter.1 mem
    have : p = place := h.place_unique (eq ▸ h.indexed p x mem) (h.indexed place o there)
    simp [this] at other
  · rw [Function.update_of_ne eq, h.view_eq_some_iff]
    refine and_congr_left fun here => exists_congr fun p => ?_
    refine ⟨fun mem => (List.mem_filter.1 mem).1, fun mem => List.mem_filter.2 ⟨mem, ?_⟩⟩
    have : p ≠ place := by
      rintro rfl
      exact eq (here ▸ h.object_unique mem there ▸ rfl)
    simpa using this

end Indexed

end FleetRegistry.Store
