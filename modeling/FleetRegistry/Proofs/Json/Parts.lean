import FleetRegistry.Json.Basic
import Mathlib.Logic.Relation

/-!
The parts of a value: items of lists and values of members, the parts of those, and so on. What
holds of a value whenever it holds of everything in it holds of every value.
-/
namespace FleetRegistry.Json

/-- One value stands directly in another one. -/
inductive Part : Json → Json → Prop
  | item {item : Json} {items : List Json} (mem : item ∈ items) : Part item (.arr items)
  | value {member : String × Json} {members : Members} (mem : member ∈ members) :
    Part member.2 (.obj members)

/-- A value is another one or stands in it, at any depth. -/
def Inside : Json → Json → Prop := Relation.ReflTransGen Part

variable {value part : Json} {items : List Json} {members : Members}

theorem Part.size_lt (h : Part part value) : sizeOf part < sizeOf value := by
  cases h with
  | item mem =>
    have := List.sizeOf_lt_of_mem mem
    simp only [arr.sizeOf_spec]
    omega
  | @value member members mem =>
    have := List.sizeOf_lt_of_mem mem
    obtain ⟨name, value⟩ := member
    simp only [obj.sizeOf_spec, Prod.mk.sizeOf_spec] at this ⊢
    omega

/-- A statement about values may be taken for granted of everything that stands in one. -/
theorem parts_induction {motive : Json → Prop}
    (step : ∀ value, (∀ part, Relation.TransGen Part part value → motive part) → motive value)
    (value : Json) : motive value := by
  have founded : WellFounded Part := Subrelation.wf Part.size_lt (measure sizeOf).wf
  exact founded.transGen.induction value step

theorem inside_arr_iff :
    Inside part (.arr items) ↔ part = .arr items ∨ ∃ item ∈ items, Inside part item := by
  constructor
  · intro inside
    rcases Relation.ReflTransGen.cases_tail inside with same | ⟨middle, first, last⟩
    · exact .inl same.symm
    · cases last with
      | item mem => exact .inr ⟨middle, mem, first⟩
  · rintro (rfl | ⟨item, mem, inside⟩)
    · exact .refl
    · exact inside.tail (.item mem)

theorem inside_obj_iff :
    Inside part (.obj members) ↔
      part = .obj members ∨ ∃ member ∈ members, Inside part member.2 := by
  constructor
  · intro inside
    rcases Relation.ReflTransGen.cases_tail inside with same | ⟨middle, first, last⟩
    · exact .inl same.symm
    · cases last with
      | value mem => exact .inr ⟨_, mem, first⟩
  · rintro (rfl | ⟨member, mem, inside⟩)
    · exact .refl
    · exact inside.tail (.value mem)

end FleetRegistry.Json
