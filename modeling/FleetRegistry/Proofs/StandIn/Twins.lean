import FleetRegistry.Proofs.Registry.Trials
import FleetRegistry.Proofs.StandIn.Namespaces

/-!
Two stores that hold the same content: one behind a registry, one behind a stand-in. The registry
prepares, checks and completes what it is given, and the stand-in does not, so versions, identities
and generations drift apart. What writers declare does not, nor does its order; and it is all that a
list looks at.
-/
namespace FleetRegistry

variable {k : Kind}

namespace Object

variable {o o' : Object k}

/-- What a writer declares of an object. No namespace is the same as an empty one. -/
def content (o : Object k) :=
  (o.metadata.namespaceText, o.metadata.name, o.metadata.labels, o.metadata.annotations, o.spec)

/-! ## What is decided by the content -/

theorem name_of_content (same : o.content = o'.content) : o.metadata.name = o'.metadata.name :=
  congrArg (·.2.1) same

theorem named_of_content (same : o.content = o'.content) (named : o.IsNamed) : o'.IsNamed := by
  unfold IsNamed ObjectMeta.nameText at *
  rwa [← name_of_content same]

theorem anyName_of_content (same : o.content = o'.content) (named : o.IsNamed) :
    o.anyName = o'.anyName := by
  rw [anyName_of_named named, anyName_of_named (named_of_content same named), ObjectMeta.nameText,
    ObjectMeta.nameText, name_of_content same]

theorem namespaceText_of_content (same : o.content = o'.content) :
    o.metadata.namespaceText = o'.metadata.namespaceText := congrArg (·.1) same

theorem key_of_content (same : o.content = o'.content) (named : o.IsNamed) : o.key = o'.key := by
  have spaces : o.metadata.ns.getD "" = o'.metadata.ns.getD "" := namespaceText_of_content same
  unfold key ObjectKey.ofAddress
  rw [spaces, anyName_of_content same named]

theorem selects_of_content (same : o.content = o'.content) (named : o.IsNamed)
    (selection : Selection) : selection.selects o = selection.selects o' := by
  have labels : o.metadata.labels = o'.metadata.labels := congrArg (·.2.2.1) same
  have attributes : o.attributes = o'.attributes := by
    unfold Object.attributes ObjectMeta.labelMap
    rw [labels, anyName_of_content same named, namespaceText_of_content same]
  unfold Selection.selects
  rw [attributes]

theorem isIn_of_content (same : o.content = o'.content) {ns : Option String}
    (given : ns ≠ some "") : o.isIn ns = o'.isIn ns := by
  have read : ∀ x : Object k, x.isIn ns
      = (!k.namespaced || ns.isNone || x.metadata.namespaceText == ns.getD "") := by
    intro x
    cases ns with
    | none => simp [isIn]
    | some ns =>
      have given : ns ≠ "" := fun empty => given (congrArg some empty)
      unfold isIn ObjectMeta.namespaceText
      cases x.metadata.ns with
      | none => simp [given.symm]
      | some own => simp
  rw [read, read, namespaceText_of_content same]

/-! ## Objects that stand for each other -/

/-- An object of a registry and the one of a stand-in that has its content. Nobody has begun to
delete it, it waits for nothing, and its generation has counted so many calls at most. -/
structure Twin (n : Nat) (o o' : Object k) : Prop where
  content : o.content = o'.content
  named : o.IsNamed
  outside : k.namespaced = false → o.metadata.namespaceText = ""
  live : o.metadata.deletionTimestamp = none
  free : o.metadata.finalizerList = []
  counted : ∃ generation, o.metadata.generation = some generation
    ∧ 0 ≤ generation ∧ generation.toInt ≤ n

namespace Twin

variable {m n : Nat}

theorem key (h : o.Twin n o') : o.key = o'.key := key_of_content h.content h.named

theorem later (le : m ≤ n) (h : o.Twin m o') : o.Twin n o' where
  content := h.content
  named := h.named
  outside := h.outside
  live := h.live
  free := h.free
  counted := by
    obtain ⟨generation, eq, notNegative, bounded⟩ := h.counted
    exact ⟨generation, eq, notNegative, by omega⟩

theorem generationErrors (h : o.Twin n o') (path : FieldPath) :
    o.metadata.generationErrors path = [] := by
  obtain ⟨generation, eq, notNegative, -⟩ := h.counted
  simp [ObjectMeta.generationErrors, eq, Int64.not_lt.2 notNegative]

theorem withContent {o'' : Object k} (h : o.Twin n o') (same : o'.content = o''.content) :
    o.Twin n o'' := { h with content := h.content.trans same }

theorem withVersion (h : o.Twin n o') (revision : Nat) : (o.withVersion revision).Twin n o' :=
  ⟨h.content, h.named, h.outside, h.live, h.free, h.counted⟩

theorem entered (h : o.Twin n o') (ambient ambient' : Ambient) (revision revision' : Nat) :
    (Store.entered ambient revision o).Twin n (Store.entered ambient' revision' o') :=
  ⟨h.content, h.named, h.outside, h.live, h.free, h.counted⟩

end Twin

end Object

namespace Store

variable {s t : Store k} {m n : Nat}

def Mirrors (n : Nat) (s t : Store k) : Prop :=
  List.Forall₂ (fun entry entry' => entry.2.Twin n entry'.2) s.objects t.objects

theorem Mirrors.later (le : m ≤ n) (h : s.Mirrors m t) : s.Mirrors n t :=
  h.imp fun _ _ twin => twin.later le

/-- The store of a registry, as calls leave it, and that of a stand-in, with the same content. -/
structure Twins (n : Nat) (s t : Store k) : Prop where
  orderly : s.Orderly
  indexed : t.Indexed
  mirrors : s.Mirrors n t

theorem twins_empty : (empty k).Twins 0 (empty k) where
  orderly := Registry.orderly_after {} []
  indexed := (Registry.orderly_after {} []).indexed
  mirrors := .nil

theorem exists_partner {α β : Type} {R : α → β → Prop} {l : List α} {l' : List β}
    (h : List.Forall₂ R l l') {a : α} (mem : a ∈ l) : ∃ b ∈ l', R a b := by
  induction h with
  | nil => cases mem
  | @cons _ b _ _ first _ ih =>
    rcases List.mem_cons.1 mem with rfl | mem
    · exact ⟨b, List.mem_cons_self, first⟩
    · obtain ⟨b', mem', related⟩ := ih mem
      exact ⟨b', List.mem_cons_of_mem _ mem', related⟩

theorem Twins.view (h : s.Twins n t) (key : ObjectKey) :
    s.view key = none ∧ t.view key = none
      ∨ ∃ o o', s.view key = some o ∧ t.view key = some o' ∧ o.Twin n o' := by
  have indexed := h.orderly.indexed
  cases here : s.view key with
  | some o =>
    obtain ⟨⟨place, mem⟩, rfl⟩ := indexed.view_eq_some_iff.1 here
    obtain ⟨⟨place', o'⟩, mem', twin⟩ := exists_partner h.mirrors mem
    have there : t.view o.key = some o' :=
      h.indexed.view_eq_some_iff.2 ⟨⟨place', mem'⟩, twin.key.symm⟩
    exact .inr ⟨o, o', rfl, there, twin⟩
  | none =>
    refine .inl ⟨rfl, Option.eq_none_iff_forall_ne_some.2 fun o' there => ?_⟩
    obtain ⟨⟨place', mem'⟩, rfl⟩ := h.indexed.view_eq_some_iff.1 there
    obtain ⟨⟨place, o⟩, mem, twin⟩ := exists_partner (List.Forall₂.flip h.mirrors) mem'
    have twin : o.Twin n o' := twin
    have found : s.view o'.key = some o := indexed.view_eq_some_iff.2 ⟨⟨place, mem⟩, twin.key⟩
    rw [here] at found
    cases found

theorem Twins.of_view (h : s.Twins n t) {key : ObjectKey} {o : Object k}
    (there : s.view key = some o) : ∃ o', t.view key = some o' ∧ o.Twin n o' := by
  rcases h.view key with ⟨absent, -⟩ | ⟨found, o', there', partner, twin⟩
  · rw [there] at absent
    cases absent
  · obtain rfl : o = found := Option.some.inj (there.symm.trans there')
    exact ⟨o', partner, twin⟩

/-! ## Changes made on both sides -/

@[simp] theorem mirrors_record {e e' : Event k} :
    (record e s).Mirrors n (record e' t) ↔ s.Mirrors n t := by
  simp only [Mirrors, record_objects]

theorem Mirrors.inserted (h : s.Mirrors n t) {o o' : Object k} (twin : o.Twin n o') :
    (s.inserted o).Mirrors n (t.inserted o') :=
  List.rel_append h (.cons twin .nil)

theorem Mirrors.placing (h : s.Mirrors n t) {s' t' : Store k} {key : ObjectKey}
    {left left' : Option (Object k)} (twins : Option.Rel (Object.Twin n) left left')
    (objects : s'.objects = Store.placing key left s.objects)
    (objects' : t'.objects = Store.placing key left' t.objects) : s'.Mirrors n t' := by
  unfold Mirrors
  rw [objects, objects']
  refine List.rel_filterMap ?_ h
  rintro ⟨place, o⟩ ⟨place', o'⟩ twin
  have twin : o.Twin n o' := twin
  by_cases here : o'.key = key
  · cases twins with
    | none => simp [twin.key, here]
    | some twins => simp [twin.key, here, twins]
  · simp [twin.key, here, twin]

/-! ## Lists -/

theorem Mirrors.selected (h : s.Mirrors n t) {ns : Option String} (given : ns ≠ some "")
    (selection : Selection) :
    List.Forall₂ (fun entry entry' => entry.2.Twin n entry'.2) (s.selected ns selection 0)
      (t.selected ns selection 0) := by
  refine List.rel_filter ?_ h
  rintro ⟨place, o⟩ ⟨place', o'⟩ twin
  have twin : o.Twin n o' := twin
  simp [Object.isIn_of_content twin.content given,
    Object.selects_of_content twin.content twin.named]

end Store

/-- Two pages that show the same content, and of which both or none is the last. -/
structure Page.Same (page page' : Page k) : Prop where
  items : page.items.map (·.content) = page'.items.map (·.content)
  more : page.continueToken.isSome = page'.continueToken.isSome

theorem Store.Mirrors.list {s t : Store k} {n : Nat} (h : s.Mirrors n t) {ns : Option String}
    (given : ns ≠ some "") {selection : Selection} (first : selection.continueToken = none) :
    ∃ page page', s.list ns selection = .ok page ∧ t.list ns selection = .ok page'
      ∧ page.Same page' := by
  have found := h.selected given selection
  have contents {l l' : List (Nat × Object k)}
      (twins : List.Forall₂ (fun entry entry' => entry.2.Twin n entry'.2) l l') :
      (l.map (·.2)).map (·.content) = (l'.map (·.2)).map (·.content) := by
    rw [List.map_map, List.map_map, ← List.forall₂_eq_eq_eq, List.forall₂_map_left_iff,
      List.forall₂_map_right_iff]
    exact twins.imp fun _ _ twin => twin.content
  unfold Store.list
  rw [first]
  simp only [startPlace]
  cases selection.limit with
  | none => exact ⟨_, _, rfl, rfl, contents found, rfl⟩
  | some limit =>
    refine ⟨_, _, rfl, rfl, contents (List.forall₂_take limit found), ?_⟩
    have rest := List.forall₂_drop limit found
    dsimp only
    generalize (s.selected ns selection 0).drop limit = left at rest ⊢
    generalize (t.selected ns selection 0).drop limit = left' at rest ⊢
    cases rest <;> rfl

end FleetRegistry
