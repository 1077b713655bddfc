import FleetRegistry.Proofs.Store.Places
import FleetRegistry.Proofs.Watch.View
import FleetRegistry.Registry.Basic

/-!
What a list shows. A list without pages is the wanted part of what the store holds: each object
once, and with the same selectors the same objects that a watch is about.
-/
namespace FleetRegistry

variable {k : Kind}

/-! ## Views of lists -/

namespace View

@[simp] theorem ofList_nil : ofList ([] : List (Object k)) = fun _ => none := rfl

theorem ofList_cons (o : Object k) (rest : List (Object k)) (key : ObjectKey) :
    ofList (o :: rest) key = if o.key = key then some o else ofList rest key := by
  by_cases h : o.key = key <;> simp [ofList, h]

theorem ofList_eq_none {objects : List (Object k)} {key : ObjectKey}
    (absent : key ∉ objects.map Object.key) : ofList objects key = none := by
  refine List.find?_eq_none.2 fun o mem => ?_
  have other : o.key ≠ key := fun same => absent (same ▸ List.mem_map_of_mem mem)
  simpa using other

theorem ofList_eq_some_iff {objects : List (Object k)} (once : (objects.map Object.key).Nodup)
    {key : ObjectKey} {o : Object k} : ofList objects key = some o ↔ o ∈ objects ∧ o.key = key := by
  induction objects with
  | nil => simp
  | cons x rest ih =>
    have ⟨fresh, once⟩ := List.nodup_cons.1 once
    rw [ofList_cons]
    by_cases h : x.key = key
    · subst h
      have absent : ∀ y ∈ rest, y.key ≠ x.key := fun y mem same =>
        fresh (same ▸ List.mem_map_of_mem mem)
      grind
    · rw [if_neg h, ih once]
      grind

end View

namespace WatchEvent

theorem follow_added {objects : List (Object k)} (once : (objects.map Object.key).Nodup)
    {v : View k} (fresh : ∀ o ∈ objects, v o.key = none) :
    AllPlaced v (objects.map added)
      ∧ follow v (objects.map added) = fun key => (View.ofList objects key).or (v key) := by
  induction objects generalizing v with
  | nil => simp [AllPlaced]
  | cons o rest ih =>
    obtain ⟨first, once⟩ := List.nodup_cons.1 once
    have kept : ∀ x ∈ rest, (added o).onView v x.key = none := by
      intro x mem
      have other : x.key ≠ o.key := fun same => first (same ▸ List.mem_map_of_mem mem)
      rw [onView, Function.update_of_ne other]
      exact fresh x (List.mem_cons_of_mem _ mem)
    obtain ⟨placed, follows⟩ := ih once kept
    refine ⟨⟨fresh o List.mem_cons_self, placed⟩, ?_⟩
    rw [List.map_cons, follow_cons, follows]
    funext key
    rw [View.ofList_cons]
    by_cases h : o.key = key
    · subst h
      simp [onView, View.ofList_eq_none first]
    · simp [onView, Function.update_of_ne (Ne.symm h), h]

end WatchEvent

/-! ## Lists of a store -/

namespace Store

variable {s : Store k} {ns : Option String} {selection : Selection}

theorem mem_selected {entry : Nat × Object k} :
    entry ∈ s.selected ns selection 0 ↔ entry ∈ s.objects ∧ entry.2.wanted ns selection := by
  simp [selected, Object.wanted]

theorem Indexed.entriesOnce (h : s.Indexed) : (s.objects.map (·.2.key)).Nodup := by
  have once : s.objects.Nodup := List.Nodup.of_map _ h.placesOnce
  refine once.map_on fun a ha b hb same => ?_
  have place : a.1 = b.1 := h.place_unique (h.indexed a.1 a.2 ha) (same ▸ h.indexed b.1 b.2 hb)
  have held : (b.1, a.2) ∈ s.objects := place ▸ ha
  exact Prod.ext place (h.object_unique held hb)

def whole (ns : Option String) (selection : Selection) (s : Store k) : Page k where
  items := (s.selected ns selection 0).map (·.2)
  resourceVersion := some (Nat.repr s.revision)

theorem items_whole (ns : Option String) (selection : Selection) (s : Store k) :
    (s.whole ns selection).items = s.toList.filter (·.wanted ns selection) := by
  simp [whole, selected, toList, List.filter_map, Function.comp_def, Object.wanted]

theorem items_everything (ns : Option String) (s : Store k) :
    (s.whole ns .everything).items = s.toList.filter (·.isIn ns) := by
  rw [items_whole]
  refine List.filter_congr fun o _ => ?_
  rw [Object.wanted, Selection.selects_of_isEverything rfl, Bool.and_true]

theorem list_unpaged (unlimited : selection.limit = none) (first : selection.continueToken = none) :
    s.list ns selection = .ok (s.whole ns selection) := by
  unfold list
  rw [first, unlimited]
  rfl

theorem Indexed.keys_whole (h : s.Indexed) (ns : Option String) (selection : Selection) :
    ((s.whole ns selection).items.map Object.key).Nodup := by
  have sub : (s.selected ns selection 0).Sublist s.objects := List.filter_sublist
  have keys : (s.whole ns selection).items.map Object.key
      = (s.selected ns selection 0).map (·.2.key) := List.map_map
  rw [keys]
  exact h.entriesOnce.sublist (sub.map _)

theorem Indexed.ofList_whole (h : s.Indexed) :
    View.ofList (s.whole ns selection).items = s.view.only (Object.wanted ns selection) := by
  funext key
  refine Option.ext fun o => ?_
  rw [View.ofList_eq_some_iff (h.keys_whole ns selection), View.only, Option.filter_eq_some_iff,
    h.view_eq_some_iff]
  have shown : o ∈ (s.whole ns selection).items
      ↔ (∃ place, (place, o) ∈ s.objects) ∧ o.wanted ns selection = true := by
    simp [whole, mem_selected]
  rw [shown]
  tauto

end Store

/-! ## One query for lists and watches -/

/-- What a client wants to know about: a namespace and selectors. -/
structure Query where
  ns : Option String := none
  labelSelector : Option String := none
  fieldSelector : Option String := none

namespace Query

def listOptions (q : Query) : ListOptions where
  labelSelector := q.labelSelector
  fieldSelector := q.fieldSelector

def watchOptions (version : Option String) (timeoutSeconds : Option Nat) (q : Query) :
    WatchOptions where
  labelSelector := q.labelSelector
  fieldSelector := q.fieldSelector
  resourceVersion := version
  timeoutSeconds := timeoutSeconds

theorem selection_cases (q : Query) :
    (∃ error, Selection.ofListOptions q.listOptions = .error error) ∨
      ∃ selection : Selection, selection.limit = none ∧ selection.continueToken = none
        ∧ Selection.ofListOptions q.listOptions = .ok selection
        ∧ ∀ version timeout,
          Selection.ofWatchOptions (q.watchOptions version timeout) = .ok selection := by
  unfold Selection.ofListOptions Selection.ofWatchOptions
  cases h : Selection.selectors q.labelSelector q.fieldSelector with
  | error error => exact .inl ⟨error, by simp [listOptions, h]⟩
  | ok parsed =>
    refine .inr ⟨⟨parsed.1, parsed.2, none, none⟩, rfl, rfl, ?_, fun version timeout => ?_⟩
    · simp [listOptions, h]
    · simp [watchOptions, h]

end Query

theorem Registry.range_named (k : Kind) (ns : Option String) : range k ns ≠ some "" := by
  unfold range
  split
  next =>
    intro eq
    have := (Option.filter_eq_some_iff.1 eq).2
    simp at this
  next => simp

end FleetRegistry
