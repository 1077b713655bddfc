/-!
Sets of texts, kept in ascending order, so that equal sets have equal representations.
-/
namespace FleetRegistry

structure StringSet where
  elements : List String
  ascending : elements.Pairwise (· < ·)
  deriving DecidableEq

namespace StringSet

def empty : StringSet := ⟨[], .nil⟩

instance : Inhabited StringSet := ⟨empty⟩

/-- The elements with one more in its place. -/
def insertElement (text : String) : List String → List String
  | [] => [text]
  | other :: rest =>
    if text < other then text :: other :: rest
    else if text = other then other :: rest
    else other :: insertElement text rest

theorem mem_insertElement {text other : String} {elements : List String} :
    other ∈ insertElement text elements ↔ other = text ∨ other ∈ elements := by
  induction elements with
  | nil => simp [insertElement]
  | cons head rest ih =>
    unfold insertElement
    split
    · simp
    · split
      next eq => subst eq; simp
      next => simp [ih, or_left_comm]

theorem insertElement_ascending (text : String) {elements : List String}
    (ascending : elements.Pairwise (· < ·)) : (insertElement text elements).Pairwise (· < ·) := by
  induction elements with
  | nil => simp [insertElement]
  | cons head rest ih =>
    have ⟨below, tail⟩ := List.pairwise_cons.1 ascending
    unfold insertElement
    split
    next lt =>
      refine List.pairwise_cons.2 ⟨fun other mem => ?_, ascending⟩
      rcases List.mem_cons.1 mem with rfl | mem
      · exact lt
      · exact String.lt_trans lt (below other mem)
    next notLt =>
      split
      next => exact ascending
      next ne =>
        refine List.pairwise_cons.2 ⟨fun other mem => ?_, ih tail⟩
        rcases mem_insertElement.1 mem with rfl | mem
        · exact Std.lt_of_le_of_ne (Std.not_lt.1 notLt) (Ne.symm ne)
        · exact below other mem

def insert (set : StringSet) (text : String) : StringSet :=
  ⟨insertElement text set.elements, insertElement_ascending text set.ascending⟩

def ofList (texts : List String) : StringSet :=
  texts.foldl insert empty

def contains (set : StringSet) (text : String) : Bool := set.elements.contains text

def size (set : StringSet) : Nat := set.elements.length

instance : Membership String StringSet := ⟨fun set text => text ∈ set.elements⟩

@[simp] theorem contains_iff {set : StringSet} {text : String} :
    set.contains text = true ↔ text ∈ set := by
  simp [contains, Membership.mem]

@[simp] theorem mem_insert {set : StringSet} {text other : String} :
    other ∈ set.insert text ↔ other = text ∨ other ∈ set :=
  mem_insertElement

@[simp] theorem mem_ofList {texts : List String} {text : String} :
    text ∈ ofList texts ↔ text ∈ texts := by
  suffices general : ∀ (set : StringSet),
      text ∈ texts.foldl insert set ↔ text ∈ set ∨ text ∈ texts by
    have nothing : text ∉ empty := by intro mem; cases mem
    simpa [ofList, nothing] using general empty
  induction texts with
  | nil => simp
  | cons head rest ih => simp [ih, or_left_comm, or_assoc]

theorem insertElement_last {text : String} {elements : List String}
    (below : ∀ other ∈ elements, other < text) :
    insertElement text elements = elements ++ [text] := by
  induction elements with
  | nil => rfl
  | cons head rest ih =>
    have lt : head < text := below head (List.mem_cons_self ..)
    have notBefore : ¬text < head := String.lt_asymm lt
    have other : text ≠ head := fun same => String.lt_irrefl text (same ▸ lt)
    rw [insertElement, if_neg notBefore, if_neg other,
      ih fun x mem => below x (List.mem_cons_of_mem _ mem), List.cons_append]

/-- Texts that are in order already stay as they are. -/
theorem elements_ofList {texts : List String} (ascending : texts.Pairwise (· < ·)) :
    (ofList texts).elements = texts := by
  suffices general : ∀ set : StringSet, (set.elements ++ texts).Pairwise (· < ·) →
      (texts.foldl insert set).elements = set.elements ++ texts from general empty ascending
  clear ascending
  induction texts with
  | nil => simp
  | cons head rest ih =>
    intro set ordered
    have below : ∀ other ∈ set.elements, other < head := fun other mem =>
      (List.pairwise_append.1 ordered).2.2 other mem head (List.mem_cons_self ..)
    have next : (set.insert head).elements = set.elements ++ [head] := insertElement_last below
    have ordered' : ((set.insert head).elements ++ rest).Pairwise (· < ·) := by
      rw [next, List.append_assoc]
      exact ordered
    rw [List.foldl_cons, ih _ ordered', next, List.append_assoc, List.singleton_append]

end StringSet

end FleetRegistry
