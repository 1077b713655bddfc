import FleetRegistry.Proofs.Patch.Reserved

/-!
Strategic merges that are plain ones. They differ by their directives and by the lists that they
merge element by element; a patch that has neither means the same as a plain merge.
-/
namespace FleetRegistry.Patch

open Json (Members)

/-- An object is reached from another one through members that are objects. -/
def Reaches : Members → Members → Prop :=
  Relation.ReflTransGen fun outer inner => ∃ name, (name, .obj inner) ∈ outer

/-- No list that is reached through objects stands under a name with a key. -/
def NamesNoList (keys : List (String × String)) (patch : Members) : Prop :=
  ∀ members, Reaches patch members → ∀ name items, (name, .arr items) ∈ members →
    name ∉ keys.map (·.1)

variable {keys : List (String × String)} {patch child target : Members} {name : String}

theorem namesNoList_iff : NamesNoList keys patch ↔
    (∀ name items, (name, .arr items) ∈ patch → name ∉ keys.map (·.1))
      ∧ ∀ name inner, (name, .obj inner) ∈ patch → NamesNoList keys inner := by
  constructor
  · exact fun none => ⟨none patch .refl, fun name inner mem members reached =>
      none members (reached.head ⟨name, mem⟩)⟩
  · rintro ⟨here, deeper⟩ members reached
    rcases Relation.ReflTransGen.cases_head reached with rfl | ⟨inner, ⟨name, mem⟩, reached⟩
    · exact here
    · exact deeper name inner mem members reached

namespace Unreserved

theorem silent (free : Unreserved (.obj patch)) : directive? patch = none := by
  unfold directive?
  cases found : patch.find? directiveKey with
  | none => rfl
  | some value =>
    have reserved : isReserved directiveKey = true := by decide
    have unreserved := (unreserved_obj_iff.1 free _ (Members.mem_of_find? found)).1
    exact absurd reserved (by simp [unreserved])

theorem stays {value : Json} (free : Unreserved value) : asksToDelete value = false := by
  cases value with
  | obj members => rw [asksToDelete_obj, free.silent]; rfl
  | _ => rfl

theorem cleanItems_eq_self {items : List Json} (free : Unreserved (.arr items)) :
    cleanItems items = items := by
  have each := unreserved_arr_iff.1 free
  rw [cleanItems, List.filter_eq_self.2 fun item mem => by simp [(each item mem).stays]]
  exact Json.arr.inj free.strip_eq_self

end Unreserved

/-! ## Member by member -/

theorem mergeAll_cons (member : String × Json) (rest target : Members) :
    mergeAll (member :: rest) target = mergeAll rest (mergeAll [member] target) := by
  obtain ⟨name, value⟩ := member
  cases value <;> rfl

theorem strategicMembers_of_steps
    (plain : ∀ member ∈ patch, ∀ target, MemberStep keys member target (mergeAll [member] target))
    (target : Members) : strategicMembers keys patch target = .ok (mergeAll patch target) := by
  induction patch generalizing target with
  | nil => rw [strategicMembers, mergeAll]
  | cons member rest ih =>
    obtain ⟨first, others⟩ := List.forall_mem_cons.1 plain
    rw [mergeAll_cons]
    exact strategicMembers_cons_eq_ok.2 ⟨_, first target, ih others _⟩

theorem merge_obj_getD (found : Option Json) :
    merge (.obj child) (found.getD (.obj [])) = merge (.obj child) (found.getD .null) := by
  cases found <;> rfl

theorem memberStep_plain {value : Json} (free : isReserved name = false) (inner : Unreserved value)
    (unkeyed : ∀ items, value = .arr items → name ∉ keys.map (·.1))
    (objects : ∀ child, value = .obj child → ∀ target,
      strategic keys value target = .ok (merge value target)) (target : Members) :
    MemberStep keys (name, value) target (mergeAll [(name, value)] target) := by
  cases value with
  | null => exact .removes target free (.inl rfl)
  | arr items =>
    have step : MemberStep keys (name, .arr items) target _ :=
      .putsList items free (keyedTarget?_of_not_named target (unkeyed items rfl))
    rw [inner.cleanItems_eq_self] at step
    exact step
  | obj child =>
    have merged := objects child rfl ((target.find? name).getD (.obj []))
    rw [merge_obj_getD] at merged
    exact .mergesObject free inner.stays merged
  | bool | int | float | str => exact .putsScalar target free rfl

/-! ## Whole patches -/

theorem strategic_eq_merge (free : Unreserved (.obj patch)) (unkeyed : NamesNoList keys patch)
    (target : Json) : strategic keys (.obj patch) target = .ok (merge (.obj patch) target) := by
  suffices general : ∀ value patch, value = .obj patch → Unreserved value → NamesNoList keys patch →
      ∀ target, strategic keys value target = .ok (merge value target) from
    general _ patch rfl free unkeyed target
  intro value
  induction value using Json.parts_induction with
  | step value ih =>
    rintro patch rfl free unkeyed target
    have each := unreserved_obj_iff.1 free
    have ⟨lists, deeper⟩ := namesNoList_iff.1 unkeyed
    refine strategic_obj_eq_ok.2 (.merges (.inl free.silent) (strategicMembers_of_steps ?_ _))
    rintro ⟨name, value⟩ mem
    refine memberStep_plain (each _ mem).1 (each _ mem).2 ?_ ?_
    · rintro items rfl
      exact lists name items mem
    · rintro child rfl
      exact ih _ (.single (.value mem)) child rfl (each _ mem).2 (deeper name child mem)

/-- A patch without directives, which merges no list element by element, succeeds on every document,
and it makes the same of it as a strategic merge and as a plain one. -/
theorem apply_strategic_eq_merge (keys : List (String × String)) (patch : Members) (doc : Json)
    (free : Unreserved (.obj patch)) (unkeyed : NamesNoList keys patch) :
    ∃ result, Patch.apply keys .strategic (.obj patch) doc = .ok result
      ∧ Patch.apply keys .merge (.obj patch) doc = .ok result := by
  have merged : strategic keys (.obj patch) doc = .ok (merge (.obj patch) doc) :=
    strategic_eq_merge free unkeyed doc
  refine ⟨_, ?_, rfl⟩
  simp only [Patch.apply, Json.isObject, free.stays, merged, Bool.not_true, Bool.false_eq_true,
    if_false]

def mixedPatch : Members := [
  ("labels", .obj [("env", .null), ("tier", .str "web")]),
  ("count", .obj [("new", .obj [("gone", .null), ("kept", .arr [.null, .obj [("x", .null)]])])]),
  ("taints", .obj [("first", .int 1)]), ("missing", .obj [("deep", .null)])]

theorem namesNoList_mixedPatch : NamesNoList [("ports", "name")] mixedPatch := by
  have step {members : Members}
      (lists : ∀ name items, (name, Json.arr items) ∈ members → name ≠ "ports")
      (deeper : ∀ name inner, (name, .obj inner) ∈ members →
        NamesNoList [("ports", "name")] inner) : NamesNoList [("ports", "name")] members :=
    namesNoList_iff.2 ⟨by simpa using lists, deeper⟩
  refine step (by simp [mixedPatch]) fun name inner mem => ?_
  simp only [mixedPatch, List.mem_cons, Prod.mk.injEq, Json.obj.injEq, List.not_mem_nil,
    or_false] at mem
  obtain ⟨-, rfl⟩ | ⟨-, rfl⟩ | ⟨-, rfl⟩ | ⟨-, rfl⟩ := mem
  · exact step (by simp) (by simp)
  · refine step (by simp) fun name inner mem => ?_
    simp only [List.mem_singleton, Prod.mk.injEq, Json.obj.injEq] at mem
    obtain ⟨-, rfl⟩ := mem
    exact step (by simp) (by simp)
  · exact step (by simp) (by simp)
  · exact step (by simp) (by simp)

theorem apply_strategic_eq_merge_mixed :
    let keys := [("ports", "name")]
    let ports : Json := .arr [.obj [("name", .str "http")]]
    let doc : Json := .obj [("labels", .obj [("env", .str "dev")]), ("count", .int 3),
      ("taints", .arr [.null]), ("ports", ports)]
    ∃ result, Patch.apply keys .strategic (.obj mixedPatch) doc = .ok result
      ∧ Patch.apply keys .merge (.obj mixedPatch) doc = .ok result
      ∧ result = .obj [
        ("labels", .obj [("tier", .str "web")]),
        ("count", .obj [("new", .obj [("kept", .arr [.null, .obj [("x", .null)]])])]),
        ("taints", .obj [("first", .int 1)]), ("ports", ports), ("missing", .obj [])] := by
  intro keys ports doc
  have free : Unreserved (.obj mixedPatch) := by decide +kernel
  obtain ⟨result, strategically, plainly⟩ :=
    apply_strategic_eq_merge keys mixedPatch doc free namesNoList_mixedPatch
  exact ⟨result, strategically, plainly, Except.ok.inj plainly.symm⟩

end FleetRegistry.Patch
