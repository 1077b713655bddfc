import FleetRegistry.Json.Canonical
import FleetRegistry.Proofs.Json.Parts
import FleetRegistry.Proofs.Patch.Steps

/-!
Reserved names. Directives have them, and a strategic merge puts none into a document: on whatever
way a part of the patch gets there, it is stripped, or merged member by member and without the
members that are reserved.
-/
namespace FleetRegistry.Patch

open Json (Members Part Inside)

/-- No member of a value, at any depth, has a reserved name. -/
def Unreserved (value : Json) : Prop :=
  ∀ members, Inside (.obj members) value → ∀ member ∈ members, isReserved member.1 = false

variable {keys : List (String × String)} {value : Json} {items : List Json} {members : Members}
  {name : String}

theorem unreserved_of_single (notList : value.items? = none) (notObject : value.members? = none) :
    Unreserved value := by
  intro members inside
  rcases Relation.ReflTransGen.cases_tail inside with same | ⟨_, _, last⟩
  · subst same
    cases notObject
  · cases last with
    | item mem => cases notList
    | value mem => cases notObject

theorem unreserved_of_scalar (scalar : value.isScalar = true) : Unreserved value := by
  cases value with
  | bool | int | float | str => exact unreserved_of_single rfl rfl
  | null | arr | obj => cases scalar

theorem unreserved_arr_iff : Unreserved (.arr items) ↔ ∀ item ∈ items, Unreserved item := by
  constructor
  · exact fun free item mem members inside =>
      free members (Json.inside_arr_iff.2 (.inr ⟨item, mem, inside⟩))
  · intro free members inside
    rcases Json.inside_arr_iff.1 inside with same | ⟨item, mem, inside⟩
    · cases same
    · exact free item mem members inside

theorem unreserved_obj_iff :
    Unreserved (.obj members) ↔
      ∀ member ∈ members, isReserved member.1 = false ∧ Unreserved member.2 := by
  constructor
  · exact fun free member mem => ⟨free members .refl member mem, fun inner inside =>
      free inner (Json.inside_obj_iff.2 (.inr ⟨member, mem, inside⟩))⟩
  · intro free inner inside
    rcases Json.inside_obj_iff.1 inside with same | ⟨member, mem, inside⟩
    · cases same
      exact fun member mem => (free member mem).1
    · exact (free member mem).2 inner inside

namespace Unreserved

theorem ofMembers (free : Unreserved value) : Unreserved (.obj (value.members?.getD [])) := by
  cases value with
  | obj members => exact free
  | _ => exact unreserved_obj_iff.2 (List.forall_mem_nil _)

theorem find? (free : Unreserved (.obj members)) (found : members.find? name = some value) :
    Unreserved value :=
  (unreserved_obj_iff.1 free _ (Members.mem_of_find? found)).2

theorem erase (free : Unreserved (.obj members)) (name : String) :
    Unreserved (.obj (members.erase name)) :=
  unreserved_obj_iff.2 fun member mem => unreserved_obj_iff.1 free member (List.mem_filter.1 mem).1

theorem set (free : Unreserved (.obj members)) (unreserved : isReserved name = false)
    (inner : Unreserved value) : Unreserved (.obj (members.set name value)) := by
  refine unreserved_obj_iff.2 fun member mem => ?_
  rcases Members.eq_or_mem_of_mem_set mem with rfl | mem
  · exact ⟨unreserved, inner⟩
  · exact unreserved_obj_iff.1 free member mem

end Unreserved

/-! ## Stripping -/

theorem stripItems_eq_map (items : List Json) : stripItems items = items.map strip := by
  induction items with
  | nil => rfl
  | cons item rest ih => rw [stripItems, ih, List.map_cons]

theorem stripMembers_eq_map (members : Members) : stripMembers members
    = (members.filter fun member => !isReserved member.1).map fun m => (m.1, strip m.2) := by
  induction members with
  | nil => rfl
  | cons member rest ih =>
    obtain ⟨name, value⟩ := member
    by_cases reserved : isReserved name = true <;> simp [stripMembers, reserved, ih]

theorem find?_stripMembers (free : isReserved name = false) (members : Members) :
    Members.find? name (stripMembers members) = (members.find? name).map strip := by
  induction members with
  | nil => rfl
  | cons member rest ih =>
    obtain ⟨other, value⟩ := member
    by_cases same : other = name
    · subst same
      simp [stripMembers, free, Members.find?]
    · by_cases reserved : isReserved other = true <;>
        simp [stripMembers, reserved, Members.find?, same, ih]

theorem unreserved_strip (value : Json) : Unreserved (strip value) := by
  induction value using Json.parts_induction with
  | step value ih =>
    cases value with
    | arr items =>
      rw [strip, stripItems_eq_map, unreserved_arr_iff, List.forall_mem_map]
      exact fun item mem => ih item (.single (.item mem))
    | obj members =>
      rw [strip, stripMembers_eq_map, unreserved_obj_iff, List.forall_mem_map]
      intro member mem
      have ⟨mem, free⟩ := List.mem_filter.1 mem
      exact ⟨by simpa using free, ih _ (.single (.value mem))⟩
    | _ => exact unreserved_of_single rfl rfl

theorem unreserved_cleanItems (items : List Json) : Unreserved (.arr (cleanItems items)) := by
  rw [cleanItems, stripItems_eq_map, unreserved_arr_iff, List.forall_mem_map]
  exact fun item _ => unreserved_strip item

theorem Unreserved.strip_eq_self (free : Unreserved value) : strip value = value := by
  induction value using Json.parts_induction with
  | step value ih =>
    cases value with
    | arr items =>
      rw [strip, stripItems_eq_map]
      refine congrArg Json.arr ((List.map_congr_left fun item mem => ?_).trans (List.map_id _))
      exact ih item (.single (.item mem)) (unreserved_arr_iff.1 free item mem)
    | obj members =>
      have each := unreserved_obj_iff.1 free
      rw [strip, stripMembers_eq_map,
        List.filter_eq_self.2 fun member mem => by simp [(each member mem).1]]
      refine congrArg Json.obj ((List.map_congr_left fun member mem => ?_).trans (List.map_id _))
      rw [ih member.2 (.single (.value mem)) (each member mem).2]
      rfl
    | _ => rfl

theorem strip_eq_self_iff : strip value = value ↔ Unreserved value :=
  ⟨fun same => same ▸ unreserved_strip value, Unreserved.strip_eq_self⟩

instance (value : Json) : Decidable (Unreserved value) := decidable_of_iff _ strip_eq_self_iff

/-! ## Merging -/

def KeepsUnreserved (keys : List (String × String)) (patch : Json) : Prop :=
  ∀ target result, Unreserved target → strategic keys patch target = .ok result → Unreserved result

theorem ItemStep.unreserved {key : String} {item : Json} {existing next : List Json}
    (step : ItemStep keys key item existing next) (keeps : KeepsUnreserved keys item)
    (free : Unreserved (.arr existing)) : Unreserved (.arr next) := by
  have each := unreserved_arr_iff.1 free
  cases step with
  | deletesNone => exact free
  | appends =>
    refine unreserved_arr_iff.2 fun e mem => ?_
    rcases List.mem_append.1 mem with mem | mem
    · exact each e mem
    · exact List.mem_singleton.1 mem ▸ unreserved_strip _
  | deletes => exact unreserved_arr_iff.2 fun e mem => each e (List.mem_of_mem_eraseIdx mem)
  | @merges _ _ _ _ i _ _ _ object =>
    have target : Unreserved (existing.getD i .null) := by
      rw [List.getD_eq_getElem?_getD]
      cases found : existing[i]? with
      | none => exact unreserved_of_single rfl rfl
      | some e => exact each e (List.mem_of_getElem? found)
    refine unreserved_arr_iff.2 fun e mem => ?_
    rcases List.mem_or_eq_of_mem_set mem with mem | rfl
    · exact each e mem
    · exact keeps _ _ target object

theorem MemberStep.unreserved {member : String × Json} {target next : Members}
    (step : MemberStep keys member target next)
    (keeps : ∀ part, Inside part member.2 → KeepsUnreserved keys part)
    (free : Unreserved (.obj target)) : Unreserved (.obj next) := by
  cases step with
  | skips => exact free
  | removes => exact free.erase _
  | putsList items unreserved => exact free.set unreserved (unreserved_cleanItems items)
  | mergesList unreserved keyed elements =>
    have existing := free.find? (keyedTarget?_eq_some.1 keyed).2
    refine free.set unreserved ?_
    refine strategicItems_keeps (motive := fun items => Unreserved (.arr items))
      (fun item mem existing next step => step.unreserved (keeps item ?_)) elements existing
    exact .single (.item mem)
  | mergesObject unreserved stays object =>
    refine free.set unreserved (keeps _ .refl _ _ ?_ object)
    cases found : target.find? _ with
    | none => exact unreserved_obj_iff.2 (List.forall_mem_nil _)
    | some value => exact free.find? found
  | putsScalar _ unreserved scalar => exact free.set unreserved (unreserved_of_scalar scalar)

theorem keepsUnreserved (keys : List (String × String)) (patch : Json) :
    KeepsUnreserved keys patch := by
  induction patch using Json.parts_induction with
  | step patch ih =>
    intro target result free merged
    cases patch with
    | obj members =>
      cases strategic_obj_eq_ok.1 merged with
      | replaces => exact unreserved_strip (.obj members)
      | merges silent all =>
        refine strategicMembers_keeps (motive := fun members => Unreserved (.obj members))
          (fun member mem target next step => step.unreserved fun part inside => ?_) all
          free.ofMembers
        exact ih part (.tail' inside (.value mem))
    | null | bool | int | float | str | arr =>
      rw [strategic_of_not_object rfl] at merged
      exact Except.ok.inj merged ▸ unreserved_strip _

/-- A document without reserved names has none after a strategic merge either, whatever the patch
and however deep it goes. -/
theorem apply_unreserved (keys : List (String × String)) (patch : Json) {doc result : Json}
    (free : Unreserved doc) (applied : Patch.apply keys .strategic patch doc = .ok result) :
    Unreserved result := by
  unfold Patch.apply at applied
  dsimp only at applied
  split at applied
  next => cases applied
  next =>
    split at applied
    next => cases applied
    next => exact keepsUnreserved keys patch doc result free applied

def reservedEverywhere : Json := .obj [
  ("labels", .obj [("$patch", .str "replace"), ("tier", .obj [("$keep", .null), ("of", .int 1)])]),
  ("status", .obj [("$retainKeys", .arr []), ("zone", .str "a")]),
  ("taints", .arr [.obj [("$patch", .str "merge")], .arr [.obj [("$deep", .int 1)]]]),
  ("ports", .arr [.obj [("name", .str "http"), ("$setElementOrder", .null), ("port", .int 80)],
    .obj [("name", .str "dns"), ("$index", .int 0), ("port", .int 53)]])]

theorem apply_unreserved_everywhere :
    let doc : Json := .obj [("labels", .obj [("env", .str "dev")]),
      ("ports", .arr [.obj [("name", .str "http")]])]
    ∃ result, Patch.apply [("ports", "name")] .strategic reservedEverywhere doc = .ok result
      ∧ ¬ Unreserved reservedEverywhere ∧ Unreserved doc ∧ Unreserved result := by
  intro doc
  have free : Unreserved doc := by decide +kernel
  have reserved : ¬ Unreserved reservedEverywhere := by decide +kernel
  cases applied : Patch.apply [("ports", "name")] .strategic reservedEverywhere doc with
  | error error =>
    have succeeds : (Patch.apply [("ports", "name")] .strategic reservedEverywhere doc).isOk := by
      decide +kernel
    rw [applied] at succeeds
    cases succeeds
  | ok result => exact ⟨result, rfl, reserved, free, apply_unreserved _ _ free applied⟩

end FleetRegistry.Patch
