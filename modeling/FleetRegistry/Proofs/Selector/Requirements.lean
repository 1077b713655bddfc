import FleetRegistry.Proofs.Name.Words
import FleetRegistry.Selector.Requirement
import Mathlib.Data.List.Sort

/-!
What a requirement holds once it is made: a key and values of letters, digits and a few marks, and
as many values as its operator takes. None of these characters is a blank or has a meaning in the
written form of a selector.
-/
namespace FleetRegistry

open Text

namespace Name

/-! ## Names in selectors -/

theorem not_blank_of_keyChar {c : Char} (key : isKeyChar c = true) : isBlank c = false := by
  have range := range_of_keyChar key
  simp only [isBlank, Bool.or_eq_false_iff, Bool.and_eq_false_iff, decide_eq_false_iff_not,
    beq_eq_false_iff_ne]
  omega

def isMark (c : Char) : Bool := c = '=' || c = '!' || c = '(' || c = ')' || c = ','

theorem not_mark {c : Char} (plain : isBlank c = true ∨ isKeyChar c = true) : isMark c = false := by
  by_contra mark
  simp only [isMark, Bool.not_eq_false, Bool.or_eq_true, decide_eq_true_eq] at mark
  rcases mark with (((rfl | rfl) | rfl) | rfl) | rfl <;> exact absurd plain (by decide)

theorem unmarked_of_blank {s : List Char} (blank : Blank s) : ∀ c ∈ s, isMark c = false :=
  fun c mem => not_mark (.inl (blank c mem))

theorem unmarked_of_padded {core s : List Char} (chars : ∀ c ∈ core, isKeyChar c = true)
    (padded : Padded core s) : ∀ c ∈ s, isMark c = false := by
  obtain ⟨front, back, blank, blank', rfl⟩ := padded
  refine List.forall_mem_append.2 ⟨List.forall_mem_append.2 ⟨unmarked_of_blank blank, ?_⟩,
    unmarked_of_blank blank'⟩
  exact fun c mem => not_mark (.inr (chars c mem))

theorem trim_of_keyChars {s : List Char} (chars : ∀ c ∈ s, isKeyChar c = true) : trim s = s :=
  trim_eq_self_iff.2
    ⟨fun c head => not_blank_of_keyChar (chars c (List.mem_of_mem_head? head)),
     fun c last => not_blank_of_keyChar (chars c (List.mem_of_getLast? last))⟩

end Name

namespace StringSet

instance (text : String) (set : StringSet) : Decidable (text ∈ set) :=
  inferInstanceAs (Decidable (text ∈ set.elements))

theorem ext_mem {set set' : StringSet} (same : ∀ text, text ∈ set ↔ text ∈ set') : set = set' := by
  obtain ⟨elements, ascending⟩ := set
  obtain ⟨elements', ascending'⟩ := set'
  have : Std.Irrefl (· < · : String → String → Prop) := ⟨String.lt_irrefl⟩
  obtain rfl : elements = elements' := ascending.eq_of_mem_iff ascending' same
  rfl

end StringSet

namespace Requirement

theorem valueFault?_eq_none {values : List String} :
    valueFault? values = none ↔ ∀ value ∈ values, Name.valueFaults value.toList = [] := by
  induction values with
  | nil => simp [valueFault?]
  | cons value rest ih =>
    rw [valueFault?, List.forall_mem_cons, ← ih]
    split
    next faults => simp [faults]
    next sound => simp [sound]

theorem make_eq_ok {key : String} {operator : LabelOperator} {values : List String}
    {r : Requirement} :
    make key operator values = .ok r
      ↔ r = ⟨key, operator, .ofList values⟩ ∧ Name.qualifiedFaults key.toList = []
        ∧ arityFault? key operator (StringSet.ofList values).size = none
        ∧ ∀ value ∈ values, Name.valueFaults value.toList = [] := by
  have members : (∀ value ∈ (StringSet.ofList values).elements, Name.valueFaults value.toList = [])
      ↔ ∀ value ∈ values, Name.valueFaults value.toList = [] :=
    forall_congr' fun value => imp_congr_left StringSet.mem_ofList
  rw [← members, ← valueFault?_eq_none]
  unfold make
  split
  next faults => simp [faults]
  next sound =>
    dsimp only
    split
    next fault eq => simp [eq]
    next fits =>
      split
      next error eq => simp [eq]
      next valid => simp [sound, fits, valid, eq_comm]

def Made (r : Requirement) : Prop := ∃ key operator values, make key operator values = .ok r

theorem made_iff {r : Requirement} :
    r.Made ↔ Name.qualifiedFaults r.key.toList = []
      ∧ arityFault? r.key r.operator r.values.size = none
      ∧ ∀ value ∈ r.values, Name.valueFaults value.toList = [] := by
  constructor
  · rintro ⟨key, operator, values, made⟩
    obtain ⟨rfl, sound, fits, valid⟩ := make_eq_ok.1 made
    exact ⟨sound, fits, fun value mem => valid value (StringSet.mem_ofList.1 mem)⟩
  · rintro ⟨sound, fits, valid⟩
    have same : StringSet.ofList r.values.elements = r.values :=
      StringSet.ext_mem fun text => StringSet.mem_ofList
    exact ⟨r.key, r.operator, r.values.elements,
      make_eq_ok.2 ⟨by rw [same], sound, by rw [same]; exact fits, valid⟩⟩

variable {r : Requirement}

theorem Made.make (made : r.Made) {values : List String}
    (same : ∀ value, value ∈ values ↔ value ∈ r.values) :
    Requirement.make r.key r.operator values = .ok r := by
  have ⟨sound, fits, valid⟩ := made_iff.1 made
  have set : StringSet.ofList values = r.values :=
    StringSet.ext_mem fun value => StringSet.mem_ofList.trans (same value)
  exact make_eq_ok.2
    ⟨by rw [set], sound, by rw [set]; exact fits, fun value mem => valid value ((same value).1 mem)⟩

theorem Made.key_chars (made : r.Made) :
    r.key.toList ≠ [] ∧ ∀ c ∈ r.key.toList, Name.isKeyChar c = true :=
  Name.key_of_qualifiedFaults (made_iff.1 made).1

theorem Made.value_chars (made : r.Made) {value : String} (mem : value ∈ r.values) :
    ∀ c ∈ value.toList, Name.isKeyChar c = true :=
  Name.chars_of_valueFaults ((made_iff.1 made).2.2 value mem)

theorem Made.one_value (made : r.Made) (compares : r.operator = .equals ∨ r.operator = .notEquals) :
    ∃ value, r.values.elements = [value] := by
  have fits := (made_iff.1 made).2.1
  have size : r.values.elements.length = 1 := by
    by_contra other
    rcases compares with eq | eq <;> simp [arityFault?, eq, StringSet.size, other] at fits
  exact List.length_eq_one_iff.1 size

theorem Made.some_value (made : r.Made) (lists : r.operator = .isIn ∨ r.operator = .notIn) :
    r.values.elements ≠ [] := by
  have fits := (made_iff.1 made).2.1
  rcases lists with eq | eq <;> simpa [arityFault?, eq, StringSet.size] using fits

theorem Made.no_value (made : r.Made)
    (existence : r.operator = .exists_ ∨ r.operator = .doesNotExist) : r.values.elements = [] := by
  have fits := (made_iff.1 made).2.1
  rcases existence with eq | eq <;> simpa [arityFault?, eq, StringSet.size] using fits

end Requirement

end FleetRegistry
