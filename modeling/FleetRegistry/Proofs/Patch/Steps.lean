import FleetRegistry.Patch.Apply
import Mathlib.Data.List.Nodup

/-!
What a strategic merge does, step by step: what one object makes of a document, what one of its
members makes of the members of that document, and what one element makes of a list whose elements
are told apart by a key. A merge succeeds exactly if all its steps do, so what every step keeps a
whole merge keeps.
-/
namespace FleetRegistry

def Json.isScalar : Json → Bool
  | .bool _ | .int _ | .float _ | .str _ => true
  | .null | .arr _ | .obj _ => false

namespace Patch

open Json (Members)

variable {keys : List (String × String)}

/-- What an object makes of a document: it replaces it, or its members are merged into those that
are there. -/
inductive ObjectStep (keys : List (String × String)) (patch : Members) : Json → Json → Prop
  | replaces (target : Json) (asked : directive? patch = some "replace") :
    ObjectStep keys patch target (.obj (stripMembers patch))
  | merges {target : Json} {merged : Members}
    (silent : directive? patch = none ∨ directive? patch = some "delete")
    (members : strategicMembers keys patch (target.members?.getD []) = .ok merged) :
    ObjectStep keys patch target (.obj merged)

/-- What a member makes of the members of a document. -/
inductive MemberStep (keys : List (String × String)) : String × Json → Members → Members → Prop
  | skips {name : String} (value : Json) (target : Members) (reserved : isReserved name = true) :
    MemberStep keys (name, value) target target
  | removes {name : String} {value : Json} (target : Members) (free : isReserved name = false)
    (asked : value = .null ∨ asksToDelete value = true) :
    MemberStep keys (name, value) target (target.erase name)
  | putsList {name : String} (items : List Json) {target : Members}
    (free : isReserved name = false) (unkeyed : keyedTarget? keys name target = none) :
    MemberStep keys (name, .arr items) target (target.set name (.arr (cleanItems items)))
  | mergesList {name key : String} {items existing merged : List Json} {target : Members}
    (free : isReserved name = false) (keyed : keyedTarget? keys name target = some (key, existing))
    (elements : strategicItems keys key items existing = .ok merged) :
    MemberStep keys (name, .arr items) target (target.set name (.arr merged))
  | mergesObject {name : String} {child target : Members} {merged : Json}
    (free : isReserved name = false) (stays : asksToDelete (.obj child) = false)
    (object : strategic keys (.obj child) ((target.find? name).getD (.obj [])) = .ok merged) :
    MemberStep keys (name, .obj child) target (target.set name merged)
  | putsScalar {name : String} {value : Json} (target : Members) (free : isReserved name = false)
    (scalar : value.isScalar = true) : MemberStep keys (name, value) target (target.set name value)

/-- What an element makes of a list. -/
inductive ItemStep (keys : List (String × String)) (key : String) :
    Json → List Json → List Json → Prop
  | deletesNone {members : Members} {value : Json} {existing : List Json}
    (found : members.find? key = some value) (absent : positionOf? key value existing = none)
    (asked : asksToDelete (.obj members) = true) :
    ItemStep keys key (.obj members) existing existing
  | appends {members : Members} {value : Json} {existing : List Json}
    (found : members.find? key = some value) (absent : positionOf? key value existing = none)
    (stays : asksToDelete (.obj members) = false) :
    ItemStep keys key (.obj members) existing (existing ++ [strip (.obj members)])
  | deletes {members : Members} {value : Json} {existing : List Json} {i : Nat}
    (found : members.find? key = some value) (place : positionOf? key value existing = some i)
    (asked : asksToDelete (.obj members) = true) :
    ItemStep keys key (.obj members) existing (existing.eraseIdx i)
  | merges {members : Members} {value merged : Json} {existing : List Json} {i : Nat}
    (found : members.find? key = some value) (place : positionOf? key value existing = some i)
    (stays : asksToDelete (.obj members) = false)
    (object : strategic keys (.obj members) (existing.getD i .null) = .ok merged) :
    ItemStep keys key (.obj members) existing (existing.set i merged)

theorem asksToDelete_obj (members : Members) :
    asksToDelete (.obj members) = decide (directive? members = some "delete") := rfl

theorem keyedTarget?_eq_some {name key : String} {target : Members} {existing : List Json} :
    keyedTarget? keys name target = some (key, existing)
      ↔ keys.lookup name = some key ∧ target.find? name = some (.arr existing) := by
  unfold keyedTarget?
  cases keys.lookup name with
  | none => simp
  | some found =>
    cases target.find? name with
    | none => simp
    | some value => cases value <;> simp [Json.items?]

theorem keyedTarget?_of_not_named {name : String} (target : Members)
    (unnamed : name ∉ keys.map (·.1)) : keyedTarget? keys name target = none := by
  have none : keys.lookup name = none := by
    refine List.lookup_eq_none_iff.2 fun entry mem => bne_iff_ne.2 fun same => unnamed ?_
    exact List.mem_map.2 ⟨entry, mem, same.symm⟩
  simp [keyedTarget?, none]

/-! ## A merge is made of its steps -/

theorem objectStep_of_map {patch : Members} {target result : Json}
    (silent : directive? patch = none ∨ directive? patch = some "delete")
    (mapped : (strategicMembers keys patch (target.members?.getD [])).map .obj = .ok result) :
    ObjectStep keys patch target result := by
  cases members : strategicMembers keys patch (target.members?.getD []) with
  | error error => simp [members, Except.map] at mapped
  | ok all =>
    simp only [members, Except.map, Except.ok.injEq] at mapped
    exact mapped ▸ .merges silent members

theorem strategic_obj_eq_ok {patch : Members} {target result : Json} :
    strategic keys (.obj patch) target = .ok result ↔ ObjectStep keys patch target result := by
  constructor
  · intro merged
    unfold strategic at merged
    split at merged
    next silent => exact objectStep_of_map (.inl silent) merged
    next directive asked =>
      by_cases replace : directive = "replace"
      · subst replace
        exact Except.ok.inj merged ▸ .replaces target asked
      · by_cases delete : directive = "delete"
        · subst delete
          rw [if_neg replace, if_pos rfl] at merged
          exact objectStep_of_map (.inr asked) merged
        · simp [replace, delete] at merged
  · intro step
    unfold strategic
    cases step with
    | replaces asked => simp [asked]
    | merges silent members =>
      rcases silent with asked | asked <;> simp [asked, members, Except.map]

theorem strategic_of_not_object {patch : Json} (notObject : patch.members? = none)
    (target : Json) : strategic keys patch target = .ok (strip patch) := by
  cases patch with
  | obj members => cases notObject
  | _ => rw [strategic]; nofun

theorem exists_memberStep {name : String} {value : Json} {rest target result : Members}
    (merged : strategicMembers keys ((name, value) :: rest) target = .ok result) :
    ∃ next, MemberStep keys (name, value) target next
      ∧ strategicMembers keys rest next = .ok result := by
  unfold strategicMembers at merged
  split at merged
  next reserved => exact ⟨_, .skips value target reserved, merged⟩
  next free =>
    have free : isReserved name = false := Bool.eq_false_iff.2 free
    split at merged
    next => exact ⟨_, .removes target free (.inl rfl), merged⟩
    next items =>
      split at merged
      next unkeyed => exact ⟨_, .putsList items free unkeyed, merged⟩
      next key existing keyed =>
        split at merged
        next => cases merged
        next all elements => exact ⟨_, .mergesList free keyed elements, merged⟩
    next child =>
      split at merged
      next asked =>
        exact ⟨_, .removes target free (.inr (by simp [asksToDelete_obj, asked])), merged⟩
      next stays =>
        split at merged
        next => cases merged
        next all object =>
          exact ⟨_, .mergesObject free (by simp [asksToDelete_obj, stays]) object, merged⟩
    next notNull notList notObject =>
      have scalar : value.isScalar = true := by
        cases value with
        | null => exact (notNull rfl).elim
        | arr items => exact (notList items rfl).elim
        | obj members => exact (notObject members rfl).elim
        | bool | int | float | str => rfl
      exact ⟨_, .putsScalar target free scalar, merged⟩

theorem MemberStep.strategicMembers_cons {member : String × Json} {target next : Members}
    (step : MemberStep keys member target next) (rest : Members) :
    strategicMembers keys (member :: rest) target = strategicMembers keys rest next := by
  cases step with
  | skips value target reserved => cases value <;> simp [strategicMembers, reserved]
  | @removes name value target free asked =>
    rcases asked with rfl | asked
    · simp [strategicMembers, free]
    · cases value with
      | obj child =>
        rw [asksToDelete_obj, decide_eq_true_eq] at asked
        simp [strategicMembers, free, asked]
      | _ => cases asked
  | putsList items free unkeyed => simp [strategicMembers, free, unkeyed]
  | mergesList free keyed elements => simp [strategicMembers, free, keyed, elements]
  | mergesObject free stays object =>
    rw [asksToDelete_obj, decide_eq_false_iff_not] at stays
    simp [strategicMembers, free, stays, object]
  | @putsScalar name value target free scalar =>
    cases value with
    | bool | int | float | str => simp [strategicMembers, free]
    | null | arr | obj => cases scalar

theorem strategicMembers_cons_eq_ok {member : String × Json} {rest target result : Members} :
    strategicMembers keys (member :: rest) target = .ok result ↔
      ∃ next, MemberStep keys member target next ∧ strategicMembers keys rest next = .ok result :=
  ⟨exists_memberStep, fun ⟨_, step, merged⟩ => (step.strategicMembers_cons rest).trans merged⟩

theorem exists_itemStep {key : String} {item : Json} {rest existing result : List Json}
    (merged : strategicItems keys key (item :: rest) existing = .ok result) :
    ∃ next, ItemStep keys key item existing next
      ∧ strategicItems keys key rest next = .ok result := by
  unfold strategicItems at merged
  cases item with
  | obj members =>
    dsimp only at merged
    split at merged
    next => cases merged
    next value found =>
      split at merged
      next absent =>
        split at merged
        next asked => exact ⟨_, .deletesNone found absent asked, merged⟩
        next stays => exact ⟨_, .appends found absent (by simpa using stays), merged⟩
      next i place =>
        split at merged
        next asked => exact ⟨_, .deletes found place asked, merged⟩
        next stays =>
          split at merged
          next => cases merged
          next all object => exact ⟨_, .merges found place (by simpa using stays) object, merged⟩
  | _ => cases merged

theorem ItemStep.strategicItems_cons {key : String} {item : Json} {existing next : List Json}
    (step : ItemStep keys key item existing next) (rest : List Json) :
    strategicItems keys key (item :: rest) existing = strategicItems keys key rest next := by
  cases step with
  | deletesNone found absent asked => simp [strategicItems, found, absent, asked]
  | appends found absent stays => simp [strategicItems, found, absent, stays]
  | deletes found place asked => simp [strategicItems, found, place, asked]
  | merges found place stays object =>
    simp only [strategicItems, found, place, stays, object, Bool.false_eq_true, if_false]

theorem strategicItems_cons_eq_ok {key : String} {item : Json} {rest existing result : List Json} :
    strategicItems keys key (item :: rest) existing = .ok result ↔
      ∃ next, ItemStep keys key item existing next
        ∧ strategicItems keys key rest next = .ok result :=
  ⟨exists_itemStep, fun ⟨_, step, merged⟩ => (step.strategicItems_cons rest).trans merged⟩

theorem strategicMembers_append_eq_ok {first rest target result : Members} :
    strategicMembers keys (first ++ rest) target = .ok result ↔
      ∃ middle, strategicMembers keys first target = .ok middle
        ∧ strategicMembers keys rest middle = .ok result := by
  induction first generalizing target with
  | nil => simp [strategicMembers]
  | cons member first ih =>
    simp only [List.cons_append, strategicMembers_cons_eq_ok, ih]
    constructor
    · rintro ⟨next, step, middle, merged, later⟩
      exact ⟨middle, ⟨next, step, merged⟩, later⟩
    · rintro ⟨middle, ⟨next, step, merged⟩, later⟩
      exact ⟨next, step, middle, merged, later⟩

theorem strategicItems_append_eq_ok {key : String} {first rest existing result : List Json} :
    strategicItems keys key (first ++ rest) existing = .ok result ↔
      ∃ middle, strategicItems keys key first existing = .ok middle
        ∧ strategicItems keys key rest middle = .ok result := by
  induction first generalizing existing with
  | nil => simp [strategicItems]
  | cons item first ih =>
    simp only [List.cons_append, strategicItems_cons_eq_ok, ih]
    constructor
    · rintro ⟨next, step, middle, merged, later⟩
      exact ⟨middle, ⟨next, step, merged⟩, later⟩
    · rintro ⟨middle, ⟨next, step, merged⟩, later⟩
      exact ⟨next, step, middle, merged, later⟩

/-! ## What every step keeps -/

theorem strategicMembers_keeps {motive : Members → Prop} {patch target result : Members}
    (step : ∀ member ∈ patch, ∀ target next, MemberStep keys member target next → motive target →
      motive next)
    (merged : strategicMembers keys patch target = .ok result) (holds : motive target) :
    motive result := by
  induction patch generalizing target with
  | nil =>
    rw [strategicMembers] at merged
    exact Except.ok.inj merged ▸ holds
  | cons member rest ih =>
    obtain ⟨next, first, later⟩ := strategicMembers_cons_eq_ok.1 merged
    have ⟨here, there⟩ := List.forall_mem_cons.1 step
    exact ih there later (here _ _ first holds)

/-- What each element keeps, all of them keep. -/
theorem strategicItems_keeps {motive : List Json → Prop} {key : String}
    {patch existing result : List Json}
    (step : ∀ item ∈ patch, ∀ existing next, ItemStep keys key item existing next →
      motive existing → motive next)
    (merged : strategicItems keys key patch existing = .ok result) (holds : motive existing) :
    motive result := by
  induction patch generalizing existing with
  | nil =>
    rw [strategicItems] at merged
    exact Except.ok.inj merged ▸ holds
  | cons item rest ih =>
    obtain ⟨next, first, later⟩ := strategicItems_cons_eq_ok.1 merged
    have ⟨here, there⟩ := List.forall_mem_cons.1 step
    exact ih there later (here _ _ first holds)

/-! ## What a member leaves alone -/

theorem MemberStep.find?_of_ne {member : String × Json} {target next : Members}
    (step : MemberStep keys member target next) {other : String} (ne : other ≠ member.1) :
    next.find? other = target.find? other := by
  cases step with
  | skips => rfl
  | removes => exact Members.find?_erase_of_ne ne _
  | putsList | mergesList | mergesObject | putsScalar => exact Members.find?_set_of_ne ne _ _

theorem strategicMembers_find?_of_ne {patch target result : Members}
    (merged : strategicMembers keys patch target = .ok result) {other : String}
    (ne : ∀ member ∈ patch, other ≠ member.1) : result.find? other = target.find? other :=
  strategicMembers_keeps (motive := fun members => members.find? other = target.find? other)
    (fun member mem _ _ step same => (step.find?_of_ne (ne member mem)).trans same) merged rfl

theorem exists_step_of_mem {patch target result : Members} {member : String × Json}
    (distinct : (patch.map (·.1)).Nodup) (mem : member ∈ patch)
    (merged : strategicMembers keys patch target = .ok result) :
    ∃ middle next, MemberStep keys member middle next
      ∧ middle.find? member.1 = target.find? member.1
      ∧ result.find? member.1 = next.find? member.1 := by
  obtain ⟨before, after, rfl⟩ := List.append_of_mem mem
  obtain ⟨middle, earlier, merged⟩ := strategicMembers_append_eq_ok.1 merged
  obtain ⟨next, step, later⟩ := strategicMembers_cons_eq_ok.1 merged
  rw [List.map_append, List.map_cons, List.nodup_middle, List.nodup_cons, List.mem_append,
    not_or] at distinct
  have apart {others : Members} (absent : member.1 ∉ others.map (·.1)) :
      ∀ other ∈ others, member.1 ≠ other.1 :=
    fun other mem same => absent (List.mem_map.2 ⟨other, mem, same.symm⟩)
  exact ⟨middle, next, step, strategicMembers_find?_of_ne earlier (apart distinct.1.1),
    strategicMembers_find?_of_ne later (apart distinct.1.2)⟩

end Patch

end FleetRegistry
