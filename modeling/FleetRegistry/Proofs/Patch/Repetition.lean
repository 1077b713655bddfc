import FleetRegistry.Proofs.Patch.Directives
import FleetRegistry.Proofs.Patch.KeyedLists

/-!
Applying a patch again to what it has made. Each member finds what it has put there, and each
element of a list that is merged by key finds the one that it has merged, put in or deleted, as long
as no other element is about the same one. What is new to a list is put in without being merged, so
there the patch must say nothing that only a merge would hear.
-/
namespace FleetRegistry

namespace Json.Members

variable {name : String} {value : Json} {members : Members}

theorem set_eq_self (found : members.find? name = some value) :
    members.set name value = members := by
  induction members with
  | nil => cases found
  | cons member rest ih =>
    obtain ⟨other, old⟩ := member
    unfold find? at found
    unfold set
    split
    next same =>
      rw [if_pos same, Option.some.injEq] at found
      rw [same, found]
    next differs =>
      rw [if_neg differs] at found
      rw [ih found]

theorem erase_eq_self (absent : members.find? name = none) : members.erase name = members := by
  induction members with
  | nil => rfl
  | cons member rest ih =>
    obtain ⟨other, old⟩ := member
    unfold find? at absent
    split at absent
    next => cases absent
    next differs => simpa [erase, differs] using ih absent

theorem find?_of_mem (distinct : (members.map (·.1)).Nodup) (mem : (name, value) ∈ members) :
    members.find? name = some value := by
  induction members with
  | nil => cases mem
  | cons member rest ih =>
    obtain ⟨absent, distinct⟩ := List.nodup_cons.1 distinct
    unfold find?
    rcases List.mem_cons.1 mem with rfl | mem
    · exact if_pos rfl
    · have differs : member.1 ≠ name := by
        rintro rfl
        exact absent (List.mem_map.2 ⟨_, mem, rfl⟩)
      rw [if_neg differs, ih distinct mem]

end Json.Members

namespace Patch

open Json (Members)

variable {keys : List (String × String)} {key : String} {item other : Json}
  {items existing middle next result : List Json}

/-! ## What an element is about -/

/-- Two elements of a list are about the same one: they have the same under its key. -/
def alike (key : String) (item other : Json) : Bool :=
  (item.member? key).any fun value => (other.member? key).any (·.same value)

def Tagged (key : String) (item : Json) : Prop := (item.member? key).any Json.isScalar = true

instance (key : String) (item : Json) : Decidable (Tagged key item) :=
  inferInstanceAs (Decidable (_ = true))

/-- The elements of a list say what they are about, and no two of them are about the same. -/
structure Addressed (key : String) (items : List Json) : Prop where
  free : isReserved key = false
  tagged : ∀ item ∈ items, Tagged key item
  apart : items.Pairwise fun item other => alike key item other = false

theorem tagged_iff :
    Tagged key item ↔ ∃ value, item.member? key = some value ∧ value.isScalar = true :=
  Option.any_eq_true _ _

theorem exists_obj_of_tagged (tagged : Tagged key item) :
    ∃ members value, item = .obj members ∧ Members.find? key members = some value
      ∧ value.isScalar = true := by
  obtain ⟨value, found, scalar⟩ := tagged_iff.1 tagged
  cases item with
  | obj members => exact ⟨members, value, rfl, found, scalar⟩
  | _ => cases found

theorem alike_of_member? {value : Json} (found : item.member? key = some value) :
    alike key item other = (other.member? key).any (·.same value) := by
  rw [alike, found, Option.any_some]

theorem same_of_same {v a b : Json} (scalar : a.isScalar = true) (first : v.same a = true)
    (second : v.same b = true) : b.same a = true := by
  cases a with
  | null | arr | obj => cases scalar
  | float y =>
    cases v with
    | float x =>
      cases b with
      | float z =>
        simp only [Json.same, Number.Binary64.same] at first second ⊢
        grind
      | _ => simp [Json.same] at second
    | _ => simp [Json.same] at first
  | bool | int | str => cases v <;> cases b <;> simp_all [Json.same]

theorem same_self_of_scalar {value : Json} (scalar : value.isScalar = true) :
    value.same value = true := by
  cases value with
  | null | arr | obj => cases scalar
  | _ => simp [Json.same]

theorem not_alike_of_alike {found : Json} (tagged : Tagged key item)
    (apart : alike key item other = false) (same : alike key item found = true) :
    alike key other found = false := by
  obtain ⟨value, here, scalar⟩ := tagged_iff.1 tagged
  rw [alike_of_member? here] at apart same
  obtain ⟨shared, there, same⟩ := (Option.any_eq_true _ _).1 same
  by_contra both
  obtain ⟨value', here', both⟩ := (Option.any_eq_true _ _).1 (Bool.not_eq_false _ ▸ both)
  rw [there, Option.any_some] at both
  rw [here', Option.any_some, same_of_same scalar same both] at apart
  cases apart

theorem not_alike_symm (tagged : Tagged key item) (apart : alike key item other = false) :
    alike key other item = false := by
  obtain ⟨value, here, scalar⟩ := tagged_iff.1 tagged
  refine not_alike_of_alike tagged apart ?_
  rw [alike_of_member? here, here, Option.any_some, same_self_of_scalar scalar]

theorem alike_of_kept (tagged : Tagged key item) (kept : other.member? key = item.member? key) :
    alike key item other = true := by
  obtain ⟨value, here, scalar⟩ := tagged_iff.1 tagged
  rw [alike_of_member? here, kept, here, Option.any_some, same_self_of_scalar scalar]

theorem member?_strip (free : isReserved key = false) (tagged : Tagged key item) :
    (strip item).member? key = item.member? key := by
  obtain ⟨members, value, rfl, here, scalar⟩ := exists_obj_of_tagged tagged
  rw [strip, Json.member?, Json.member?, find?_stripMembers free, here, Option.map_some,
    (unreserved_of_scalar scalar).strip_eq_self]

theorem member?_merged {merged : Json} (free : isReserved key = false) (tagged : Tagged key item)
    (distinct : DistinctMembers item) (done : strategic keys item other = .ok merged) :
    merged.member? key = item.member? key := by
  obtain ⟨members, value, rfl, here, scalar⟩ := exists_obj_of_tagged tagged
  cases strategic_obj_eq_ok.1 done with
  | replaces => exact member?_strip free tagged
  | merges _ all => exact (strategicMembers_scalar free scalar distinct here all).trans here.symm

/-! ## What is found in a list -/

theorem positionOf?_eq_findIdx? {value : Json} (found : item.member? key = some value) :
    positionOf? key value items = items.findIdx? (alike key item) := by
  have eq : (fun item => (item.member? key).any (·.same value)) = alike key item :=
    funext fun _ => (alike_of_member? found).symm
  rw [positionOf?, eq]

theorem positionOf?_eq_none (item : Json) {value : Json} (found : item.member? key = some value) :
    positionOf? key value items = none ↔ items.filter (alike key item) = [] := by
  rw [positionOf?_eq_findIdx? found, List.findIdx?_eq_none_iff, List.filter_eq_nil_iff]
  simp

theorem exists_split_of_position (item : Json) {value : Json} {i : Nat}
    (found : item.member? key = some value) (place : positionOf? key value items = some i) :
    ∃ before there after, items = before ++ there :: after ∧ before.length = i
      ∧ alike key item there = true ∧ before.filter (alike key item) = [] := by
  rw [positionOf?_eq_findIdx? found, List.findIdx?_eq_some_iff_getElem] at place
  obtain ⟨inside, same, first⟩ := place
  refine ⟨items.take i, items[i], items.drop (i + 1), ?_, ?_, same, ?_⟩
  · rw [← List.drop_eq_getElem_cons inside, List.take_append_drop]
  · exact List.length_take_of_le (Nat.le_of_lt inside)
  · refine List.filter_eq_nil_iff.2 fun earlier mem => ?_
    obtain ⟨j, bound, rfl⟩ := List.mem_iff_getElem.1 mem
    rw [List.getElem_take]
    exact first j (Nat.lt_of_lt_of_le bound (List.length_take_le i items))

theorem position_of_filter (item : Json) {value there : Json} {later : List Json}
    (found : item.member? key = some value)
    (all : items.filter (alike key item) = there :: later) :
    ∃ i, positionOf? key value items = some i ∧ items.getD i .null = there
      ∧ items.set i there = items := by
  obtain ⟨before, after, rfl, none, same, -⟩ := List.filter_eq_cons_iff.1 all
  refine ⟨before.length, ?_, by simp, by simp⟩
  rw [positionOf?_eq_findIdx? found, List.findIdx?_append,
    List.findIdx?_eq_none_iff.2 fun x mem => by simpa using none x mem]
  simp [List.findIdx?_cons, same]

/-- What an element makes of those that it is about. -/
inductive Leaves (keys : List (String × String)) (key : String) (item : Json) (middle : List Json) :
    List Json → Prop
  | fewer (asked : asksToDelete item = true) :
    Leaves keys key item middle (middle.filter (alike key item)).tail
  | new (stays : asksToDelete item = false) (absent : middle.filter (alike key item) = []) :
    Leaves keys key item middle [strip item]
  | merged {value there : Json} {i : Nat} (stays : asksToDelete item = false)
    (found : item.member? key = some value) (place : positionOf? key value middle = some i)
    (object : strategic keys item (middle.getD i .null) = .ok there) :
    Leaves keys key item middle (there :: (middle.filter (alike key item)).tail)

theorem ItemStep.leaves (step : ItemStep keys key item middle next) (free : isReserved key = false)
    (tagged : Tagged key item) (distinct : DistinctMembers item) :
    Leaves keys key item middle (next.filter (alike key item)) := by
  cases step with
  | deletesNone found absent asked =>
    have none := (positionOf?_eq_none (.obj _) found).1 absent
    have fewer : Leaves keys key _ middle _ := .fewer asked
    rwa [none] at fewer ⊢
  | appends found absent stays =>
    have none := (positionOf?_eq_none (.obj _) found).1 absent
    have same := alike_of_kept tagged (member?_strip free tagged)
    rw [List.filter_append, none, List.nil_append, List.filter_singleton, same]
    exact .new stays none
  | deletes found place asked =>
    obtain ⟨before, there, after, rfl, rfl, same, none⟩ :=
      exists_split_of_position (.obj _) found place
    have fewer : Leaves keys key _ (before ++ there :: after) _ := .fewer asked
    rw [List.eraseIdx_append_of_length_le (Nat.le_refl _)]
    simpa [none, same] using fewer
  | merges found place stays object =>
    have merged := Leaves.merged stays found place object
    obtain ⟨before, there, after, rfl, rfl, same, none⟩ :=
      exists_split_of_position (.obj _) found place
    have still := alike_of_kept tagged (member?_merged free tagged distinct object)
    simpa [none, same, still] using merged

theorem ItemStep.filter_of_apart (step : ItemStep keys key item middle next)
    (free : isReserved key = false) (tagged : Tagged key item) (distinct : DistinctMembers item)
    (apart : alike key item other = false) :
    next.filter (alike key other) = middle.filter (alike key other) := by
  have not {found : Json} (same : alike key item found = true) : alike key other found = false :=
    not_alike_of_alike tagged apart same
  cases step with
  | deletesNone => rfl
  | appends =>
    have new := not (alike_of_kept tagged (member?_strip free tagged))
    simp [new]
  | deletes found place =>
    obtain ⟨before, there, after, rfl, rfl, same, -⟩ :=
      exists_split_of_position (.obj _) found place
    rw [List.eraseIdx_append_of_length_le (Nat.le_refl _)]
    simp [not same]
  | merges found place stays object =>
    have new := not (alike_of_kept tagged (member?_merged free tagged distinct object))
    obtain ⟨before, there, after, rfl, rfl, same, -⟩ :=
      exists_split_of_position (.obj _) found place
    simp [not same, new]

/-! ## A merge that changes nothing -/

theorem strategicMembers_fixed {patch target : Members}
    (steps : ∀ member ∈ patch, MemberStep keys member target target) :
    strategicMembers keys patch target = .ok target := by
  induction patch with
  | nil => rw [strategicMembers]
  | cons member rest ih =>
    obtain ⟨step, steps⟩ := List.forall_mem_cons.1 steps
    exact strategicMembers_cons_eq_ok.2 ⟨target, step, ih steps⟩

theorem strategicItems_fixed (steps : ∀ item ∈ items, ItemStep keys key item existing existing) :
    strategicItems keys key items existing = .ok existing := by
  induction items with
  | nil => rw [strategicItems]
  | cons item rest ih =>
    obtain ⟨step, steps⟩ := List.forall_mem_cons.1 steps
    exact strategicItems_cons_eq_ok.2 ⟨existing, step, ih steps⟩

theorem ItemStep.self_of_absent (tagged : Tagged key item) (asked : asksToDelete item = true)
    (absent : result.filter (alike key item) = []) : ItemStep keys key item result result := by
  obtain ⟨members, value, rfl, found, -⟩ := exists_obj_of_tagged tagged
  exact .deletesNone found ((positionOf?_eq_none (.obj members) found).2 absent) asked

theorem ItemStep.self_of_merged {there : Json} {later : List Json} (tagged : Tagged key item)
    (stays : asksToDelete item = false) (present : result.filter (alike key item) = there :: later)
    (again : strategic keys item there = .ok there) : ItemStep keys key item result result := by
  obtain ⟨members, value, rfl, found, -⟩ := exists_obj_of_tagged tagged
  obtain ⟨i, place, here, same⟩ := position_of_filter (.obj members) found present
  have step := ItemStep.merges found place stays (by rw [here]; exact again)
  rwa [same] at step

theorem ItemStep.of_absent (tagged : Tagged key item) (stays : asksToDelete item = false)
    (absent : existing.filter (alike key item) = []) :
    ItemStep keys key item existing (existing ++ [strip item]) := by
  obtain ⟨members, value, rfl, found, -⟩ := exists_obj_of_tagged tagged
  exact .appends found ((positionOf?_eq_none (.obj members) found).2 absent) stays

namespace MemberStep

variable {name : String} {target child : Members} {value : Json}

theorem self_of_scalar (free : isReserved name = false) (scalar : value.isScalar = true)
    (found : target.find? name = some value) : MemberStep keys (name, value) target target := by
  have step : MemberStep keys _ _ _ := putsScalar target free scalar
  rwa [Members.set_eq_self found] at step

theorem self_of_list (free : isReserved name = false) (unkeyed : keys.lookup name = none)
    (found : target.find? name = some (.arr (cleanItems items))) :
    MemberStep keys (name, .arr items) target target := by
  have step : MemberStep keys _ target _ :=
    putsList items free (by simp [keyedTarget?, unkeyed])
  rwa [Members.set_eq_self found] at step

theorem self_of_merged_list (free : isReserved name = false) (keyed : keys.lookup name = some key)
    (found : target.find? name = some (.arr existing))
    (again : strategicItems keys key items existing = .ok existing) :
    MemberStep keys (name, .arr items) target target := by
  have step := mergesList free (keyedTarget?_eq_some.2 ⟨keyed, found⟩) again
  rwa [Members.set_eq_self found] at step

theorem self_of_object (free : isReserved name = false) (stays : asksToDelete (.obj child) = false)
    (found : target.find? name = some value)
    (again : strategic keys (.obj child) value = .ok value) :
    MemberStep keys (name, .obj child) target target := by
  have step : MemberStep keys _ target _ :=
    mergesObject free stays (by rw [found]; exact again)
  rwa [Members.set_eq_self found] at step

end MemberStep

/-- What a list of a patch makes of a list stays when it is done again: what it deletes is not there
twice, what it puts in would stay, and so does what it merges. -/
theorem strategicItems_again (addressed : Addressed key items)
    (distinct : ∀ item ∈ items, DistinctMembers item)
    (gone : ∀ item ∈ items, asksToDelete item = true →
      (existing.filter (alike key item)).length ≤ 1)
    (new : ∀ item ∈ items, asksToDelete item = false → existing.filter (alike key item) = [] →
      strategic keys item (strip item) = .ok (strip item))
    (again : ∀ before item after middle value i there, items = before ++ item :: after →
      existing.filter (alike key item) ≠ [] → strategicItems keys key before existing = .ok middle →
      item.member? key = some value → positionOf? key value middle = some i →
      asksToDelete item = false → strategic keys item (middle.getD i .null) = .ok there →
      strategic keys item there = .ok there)
    (merged : strategicItems keys key items existing = .ok result) :
    strategicItems keys key items result = .ok result := by
  refine strategicItems_fixed fun item mem => ?_
  have tagged := addressed.tagged item mem
  obtain ⟨before, after, rfl⟩ := List.append_of_mem mem
  obtain ⟨middle, earlier, rest⟩ := strategicItems_append_eq_ok.1 merged
  obtain ⟨next, step, later⟩ := strategicItems_cons_eq_ok.1 rest
  obtain ⟨-, behind, between⟩ := List.pairwise_append.1 addressed.apart
  obtain ⟨behind, -⟩ := List.pairwise_cons.1 behind
  -- No other element is about what this one is about.
  have untouched : middle.filter (alike key item) = existing.filter (alike key item) :=
    strategicItems_keeps (motive := fun list =>
        list.filter (alike key item) = existing.filter (alike key item))
      (fun other mem _ _ step same => (step.filter_of_apart addressed.free
        (addressed.tagged _ (List.mem_append_left _ mem)) (distinct _ (List.mem_append_left _ mem))
        (between other mem item List.mem_cons_self)).trans same) earlier rfl
  have kept : result.filter (alike key item) = next.filter (alike key item) :=
    strategicItems_keeps (motive := fun list =>
        list.filter (alike key item) = next.filter (alike key item))
      (fun other mem _ _ step same => by
        have mem' : other ∈ before ++ item :: after := List.mem_append_right _ (.tail _ mem)
        exact (step.filter_of_apart addressed.free (addressed.tagged _ mem') (distinct _ mem')
          (not_alike_symm tagged (behind other mem))).trans same) later rfl
  have leaves := step.leaves addressed.free tagged (distinct _ mem)
  rw [← kept] at leaves
  generalize left : result.filter (alike key item) = final at leaves
  cases leaves with
  | fewer asked =>
    have once := gone item mem asked
    rw [← untouched] at once
    have nothing : (middle.filter (alike key item)).tail = [] :=
      List.eq_nil_of_length_eq_zero (by rw [List.length_tail]; omega)
    exact .self_of_absent tagged asked (left.trans nothing)
  | new stays absent =>
    exact .self_of_merged tagged stays left (new item mem stays (untouched ▸ absent))
  | merged stays found place object =>
    have present : existing.filter (alike key item) ≠ [] := fun nothing => by
      rw [← untouched, ← positionOf?_eq_none item found, place] at nothing
      cases nothing
    exact .self_of_merged tagged stays left
      (again _ _ _ _ _ _ _ rfl present earlier found place stays object)

/-! ## Patches that may be repeated -/

variable {patch object child : Members} {value doc there : Json} {name : String}

/-- An object of a patch has a list that is merged by a key wherever the document has one too. -/
structure Lists (keys : List (String × String)) (object : Members) (name key : String)
    (items : List Json) : Prop where
  opens : Opens object
  free : isReserved name = false
  keyed : keys.lookup name = some key
  mem : (name, .arr items) ∈ object

/-- Every object of a patch has distinct names, and every list that is merged by key is addressed.
-/
structure Clear (keys : List (String × String)) (patch : Json) : Prop where
  distinct : DistinctNames keys patch
  addressed : ∀ object name key items, Covers keys patch (.obj object) →
    Lists keys object name key items → Addressed key items

/-- An object is put into a document as a merge would put it there: it removes nothing, and all its
directives are known. -/
structure Puts (object : Members) : Prop where
  known : directive? object = none ∨ directive? object = some "replace"
  stays : Opens object → ∀ member ∈ object, isReserved member.1 = false →
    member.2.isNull = false ∧ asksToDelete member.2 = false
      ∧ ∀ item ∈ member.2.items?.getD [], asksToDelete item = false

def Lasts (keys : List (String × String)) (item : Json) : Prop :=
  ∀ object, Covers keys item (.obj object) → Puts object

def listed (there : Json) (name : String) : List Json :=
  ((there.member? name).bind Json.items?).getD []

/-- What the elements of a patch do to a list they do only once: there is at most one for each that
is deleted, and what is put in lasts. -/
def Settles (keys : List (String × String)) (key : String) (items existing : List Json) : Prop :=
  ∀ item ∈ items, if asksToDelete item then (existing.filter (alike key item)).length ≤ 1
    else existing.filter (alike key item) = [] → Lasts keys item

/-- All lists that a merge comes to are settled by it. -/
structure Repeatable (keys : List (String × String)) (patch doc : Json) : Prop
    extends Clear keys patch where
  settles : ∀ object there name key items, Meets keys (patch, doc) (.obj object, there) →
    Lists keys object name key items → Settles keys key items (listed there name)

theorem Lists.holds {items : List Json} (lists : Lists keys object name key items)
    (mem : .obj child ∈ items) : Holds keys (.obj object) (.obj child) :=
  .element lists.opens lists.free lists.keyed lists.mem mem

theorem Clear.of_holds {outer inner : Json} (clear : Clear keys outer)
    (holds : Holds keys outer inner) : Clear keys inner where
  distinct := clear.distinct.of_holds holds
  addressed object name key items covers :=
    clear.addressed object name key items (covers.head holds)

theorem Lasts.of_holds {outer inner : Json} (lasts : Lasts keys outer)
    (holds : Holds keys outer inner) : Lasts keys inner :=
  fun object covers => lasts object (covers.head holds)

theorem Repeatable.of_enters {outer inner : Json × Json} (h : Repeatable keys outer.1 outer.2)
    (enters : Enters keys outer inner) : Repeatable keys inner.1 inner.2 where
  toClear := h.toClear.of_holds enters.holds
  settles object there name key items meets :=
    h.settles object there name key items (meets.head enters)

theorem Clear.distinct_items (clear : Clear keys (.obj patch))
    (lists : Lists keys patch name key items) : ∀ item ∈ items, DistinctMembers item := by
  intro item mem
  obtain ⟨child, -, rfl, -⟩ := exists_obj_of_tagged
    ((clear.addressed _ _ _ _ .refl lists).tagged item mem)
  exact clear.distinct _ (.single (lists.holds mem))

theorem strategicItems_of_absent (addressed : Addressed key items)
    (absent : ∀ item ∈ items, existing.filter (alike key item) = []) :
    strategicItems keys key items existing = .ok (existing ++ cleanItems items) := by
  induction items generalizing existing with
  | nil => simp [strategicItems, cleanItems, stripItems]
  | cons item rest ih =>
    obtain ⟨first, absent⟩ := List.forall_mem_cons.1 absent
    obtain ⟨tagged, taggedRest⟩ := List.forall_mem_cons.1 addressed.tagged
    obtain ⟨apart, apartRest⟩ := List.pairwise_cons.1 addressed.apart
    have later : Addressed key rest := ⟨addressed.free, taggedRest, apartRest⟩
    cases asked : asksToDelete item with
    | true =>
      refine strategicItems_cons_eq_ok.2 ⟨_, .self_of_absent tagged asked first, ?_⟩
      rw [ih later absent]
      simp [cleanItems, asked]
    | false =>
      refine strategicItems_cons_eq_ok.2 ⟨_, .of_absent tagged asked first, ?_⟩
      rw [ih later fun other mem => ?_]
      · simp [cleanItems, asked, stripItems]
      · have new := not_alike_of_alike tagged (apart other mem)
          (alike_of_kept tagged (member?_strip addressed.free tagged))
        rw [List.filter_append, absent other mem, List.filter_singleton, new]
        rfl

theorem cleanItems_of_stays (stays : ∀ item ∈ items, asksToDelete item = false) :
    cleanItems items = stripItems items := by
  rw [cleanItems, List.filter_eq_self.2 fun item mem => by simp [stays item mem]]

theorem Clear.member_strip {member : String × Json} (clear : Clear keys (.obj patch))
    (opens : Opens patch) (puts : Puts patch) (mem : member ∈ patch)
    (inner : ∀ child, Holds keys (.obj patch) (.obj child) →
      strategic keys (.obj child) (strip (.obj child)) = .ok (strip (.obj child))) :
    MemberStep keys member (stripMembers patch) (stripMembers patch) := by
  obtain ⟨name, value⟩ := member
  cases free : isReserved name with
  | true => exact .skips _ _ free
  | false =>
    have distinct : (patch.map (·.1)).Nodup := clear.distinct _ .refl
    have found : Members.find? name (stripMembers patch) = some (strip value) := by
      rw [find?_stripMembers free, Members.find?_of_mem distinct mem, Option.map_some]
    have ⟨notNull, stays, staysAll⟩ := puts.stays opens _ mem free
    cases value with
    | null => cases notNull
    | bool | int | float | str => exact .self_of_scalar free rfl found
    | obj child => exact .self_of_object free stays found (inner _ (.member opens free mem))
    | arr items =>
      have clean : cleanItems items = stripItems items := cleanItems_of_stays staysAll
      cases keyed : keys.lookup name with
      | none => exact .self_of_list free keyed (clean ▸ found)
      | some key =>
        have lists : Lists keys patch name key items := ⟨opens, free, keyed, mem⟩
        have addressed := clear.addressed _ _ _ _ .refl lists
        have merged : strategicItems keys key items [] = .ok ([] ++ cleanItems items) :=
          strategicItems_of_absent addressed fun _ _ => rfl
        rw [List.nil_append, clean] at merged
        refine .self_of_merged_list free keyed found (strategicItems_again addressed
          (clear.distinct_items lists) ?_ ?_ ?_ merged)
        · exact fun item mem asked => by simp [staysAll item mem] at asked
        · intro item mem _ _
          obtain ⟨child, -, rfl, -⟩ := exists_obj_of_tagged (addressed.tagged item mem)
          exact inner child (lists.holds mem)
        · exact fun _ _ _ _ _ _ _ _ present => (present rfl).elim

theorem strategic_strip (clear : Clear keys value) (lasts : Lasts keys value) :
    strategic keys value (strip value) = .ok (strip value) := by
  induction value using Json.parts_induction with
  | step value ih =>
    cases value with
    | obj patch =>
      have puts := lasts patch .refl
      rcases puts.known with silent | replace
      · refine strategic_obj_eq_ok.2 (.merges (.inl silent) (strategicMembers_fixed ?_))
        exact fun member mem => clear.member_strip (opens_of_silent silent) puts mem
          fun child holds => ih _ holds.part (clear.of_holds holds) (lasts.of_holds holds)
      · exact strategic_obj_eq_ok.2 (.replaces _ replace)
    | _ => exact strategic_of_not_object rfl _

theorem keyedTarget?_or_listed_nil (named : keys.lookup name = some key) (doc : Json) :
    keyedTarget? keys name (doc.members?.getD []) = some (key, listed doc name)
      ∨ keyedTarget? keys name (doc.members?.getD []) = none ∧ listed doc name = [] := by
  unfold keyedTarget? listed
  rw [find?_members, named]
  cases (doc.member? name).bind Json.items? with
  | none => exact .inr ⟨rfl, rfl⟩
  | some items => exact .inl rfl

def InnerAgain (keys : List (String × String)) (patch : Members) (doc : Json) : Prop :=
  ∀ child there result, Enters keys (.obj patch, doc) (.obj child, there) →
    strategic keys (.obj child) there = .ok result → strategic keys (.obj child) result = .ok result

theorem Repeatable.items_again {merged : List Json} (repeatable : Repeatable keys (.obj patch) doc)
    (inner : InnerAgain keys patch doc) (lists : Lists keys patch name key items)
    (elements : strategicItems keys key items (listed doc name) = .ok merged) :
    strategicItems keys key items merged = .ok merged := by
  have addressed := repeatable.addressed _ _ _ _ .refl lists
  have settles := repeatable.settles _ _ _ _ _ .refl lists
  refine strategicItems_again addressed (repeatable.distinct_items lists) ?_ ?_ ?_ elements
  · intro item mem asked
    simpa only [asked, if_true] using settles item mem
  · intro item mem stays absent
    have lasts := settles item mem
    rw [if_neg (Bool.eq_false_iff.1 stays)] at lasts
    obtain ⟨child, -, rfl, -⟩ := exists_obj_of_tagged (addressed.tagged item mem)
    exact strategic_strip (repeatable.toClear.of_holds (lists.holds mem)) (lasts absent)
  · intro before item after middle value i there split present earlier found place stays object
    subst split
    obtain ⟨child, -, rfl, -⟩ := exists_obj_of_tagged (addressed.tagged item (by simp))
    rcases keyedTarget?_or_listed_nil lists.keyed doc with keyed | ⟨-, nothing⟩
    · exact inner _ _ _ (.element lists.opens lists.free lists.mem keyed earlier found place stays)
        object
    · rw [nothing] at present
      exact (present rfl).elim

theorem Repeatable.member_again {member : String × Json} {before after result : Members}
    (repeatable : Repeatable keys (.obj patch) doc) (opens : Opens patch) (mem : member ∈ patch)
    (inner : InnerAgain keys patch doc) (step : MemberStep keys member before after)
    (same : before.find? member.1 = (doc.members?.getD []).find? member.1)
    (kept : result.find? member.1 = after.find? member.1) :
    MemberStep keys member result result := by
  cases step with
  | skips _ _ reserved => exact .skips _ _ reserved
  | removes _ free asked =>
    have step : MemberStep keys _ result _ := .removes result free asked
    rwa [Members.erase_eq_self (kept.trans (Members.find?_erase_self _ _))] at step
  | @putsList name items _ free unkeyed =>
    have found := kept.trans (Members.find?_set_self _ _ _)
    rw [keyedTarget?_congr same] at unkeyed
    cases keyed : keys.lookup name with
    | none => exact .self_of_list free keyed found
    | some key =>
      have lists : Lists keys patch name key items := ⟨opens, free, keyed, mem⟩
      have addressed := repeatable.addressed _ _ _ _ .refl lists
      rcases keyedTarget?_or_listed_nil keyed doc with some | ⟨-, nothing⟩
      · cases some.symm.trans unkeyed
      · refine .self_of_merged_list free keyed found (repeatable.items_again inner lists ?_)
        rw [nothing]
        exact strategicItems_of_absent addressed fun _ _ => rfl
  | @mergesList name key items existing merged _ free keyed elements =>
    have found := kept.trans (Members.find?_set_self _ _ _)
    rw [keyedTarget?_congr same] at keyed
    have named := (keyedTarget?_eq_some.1 keyed).1
    rcases keyedTarget?_or_listed_nil named doc with some | ⟨none, -⟩
    · cases some.symm.trans keyed
      exact .self_of_merged_list free named found
        (repeatable.items_again inner ⟨opens, free, named, mem⟩ elements)
    · cases none.symm.trans keyed
  | mergesObject free stays object =>
    have found := kept.trans (Members.find?_set_self _ _ _)
    dsimp only at same
    rw [same, find?_members] at object
    exact .self_of_object free stays found
      (inner _ _ _ (.member opens free mem stays) object)
  | putsScalar _ free scalar =>
    exact .self_of_scalar free scalar (kept.trans (Members.find?_set_self _ _ _))

theorem strategic_again {merged : Json} (repeatable : Repeatable keys value doc)
    (stays : asksToDelete value = false) (done : strategic keys value doc = .ok merged) :
    strategic keys value merged = .ok merged := by
  induction value using Json.parts_induction generalizing doc merged with
  | step value ih =>
    cases value with
    | obj patch =>
      cases strategic_obj_eq_ok.1 done with
      | replaces replace => exact strategic_obj_eq_ok.2 (.replaces _ replace)
      | @merges result silent all =>
        have opens : Opens patch := by
          refine opens_of_silent (silent.resolve_right fun asked => ?_)
          simp [asksToDelete_obj, asked] at stays
        have inner : InnerAgain keys patch doc := fun child there result enters =>
          have ⟨_, _, stays⟩ := enters.stays
          ih _ enters.holds.part (repeatable.of_enters enters) stays
        refine strategic_obj_eq_ok.2 (.merges silent (strategicMembers_fixed fun member mem => ?_))
        obtain ⟨before, after, step, same, kept⟩ :=
          exists_step_of_mem (repeatable.distinct _ .refl) mem all
        exact repeatable.member_again opens mem inner step same kept
    | _ =>
      rw [strategic_of_not_object rfl] at done
      cases done
      exact strategic_of_not_object rfl _

/-- A patch that is applied again to what it has made changes nothing. -/
theorem apply_again {patch doc result : Json} (repeatable : Repeatable keys patch doc)
    (applied : Patch.apply keys .strategic patch doc = .ok result) :
    Patch.apply keys .strategic patch result = .ok result := by
  unfold Patch.apply at applied ⊢
  dsimp only at applied ⊢
  split at applied
  next => cases applied
  next object =>
    rw [if_neg object]
    split at applied
    next => cases applied
    next stays =>
      rw [if_neg stays]
      exact strategic_again repeatable (Bool.eq_false_iff.2 stays) applied

def taint (name : String) (more : Members) : Json := .obj (("key", .str name) :: more)

def taintsTurn : Members := [("taints", .arr [taint "a" [("$patch", .str "delete")],
  taint "b" [("effect", .str "NoExecute")], taint "c" []])]

theorem repeatable_taintsTurn : Repeatable [("taints", "key")] (.obj taintsTurn)
    (.obj [("taints", .arr [taint "a" [], taint "b" []])]) := by
  have flat : ∀ child ∈ held [("taints", "key")] taintsTurn,
      DistinctMembers (.obj child) ∧ held [("taints", "key")] child = []
        ∧ ∀ member ∈ child, member.2.items? = none := by decide +kernel
  have leaf {child : Members} {value : Json} (mem : child ∈ held [("taints", "key")] taintsTurn)
      (covers : Covers [("taints", "key")] (.obj child) value) : value = .obj child := by
    rcases eq_or_held_of_covers covers with same | ⟨_, mem', -⟩
    · exact same
    · rw [(flat child mem).2.1] at mem'
      cases mem'
  have unlisted {child object : Members} {name key : String} {items : List Json}
      (mem : child ∈ held [("taints", "key")] taintsTurn)
      (covers : Covers [("taints", "key")] (.obj child) (.obj object)) :
      ¬ Lists [("taints", "key")] object name key items := fun lists => by
    rw [Json.obj.inj (leaf mem covers)] at lists
    cases (flat child mem).2.2 _ lists.mem
  have root {name key : String} {items : List Json}
      (lists : Lists [("taints", "key")] taintsTurn name key items) :
      name = "taints" ∧ key = "key" ∧ items = [taint "a" [("$patch", .str "delete")],
        taint "b" [("effect", .str "NoExecute")], taint "c" []] := by
    cases List.mem_singleton.1 lists.mem
    exact ⟨rfl, (Option.some.inj lists.keyed).symm, rfl⟩
  refine ⟨⟨fun object covers => ?_, fun object name key items covers lists => ?_⟩,
    fun object there name key items meets lists => ?_⟩
  · rcases eq_or_held_of_covers covers with rfl | ⟨child, mem, covers⟩
    · decide +kernel
    · exact leaf mem covers ▸ (flat child mem).1
  · rcases eq_or_held_of_covers covers with same | ⟨child, mem, covers⟩
    · cases same
      obtain ⟨rfl, rfl, rfl⟩ := root lists
      exact ⟨by decide, by decide +kernel, by decide +kernel⟩
    · exact (unlisted mem covers lists).elim
  · rcases Relation.ReflTransGen.cases_head meets with same | ⟨_, enters, meets⟩
    · cases same
      obtain ⟨rfl, rfl, rfl⟩ := root lists
      refine List.forall_mem_cons.2 ⟨?_, List.forall_mem_cons.2 ⟨?_, ?_⟩⟩
      · rw [if_pos (by decide +kernel)]
        decide +kernel
      · exact fun absent => absurd absent (by decide +kernel)
      · refine List.forall_mem_singleton.2 fun _ object covers => ?_
        cases leaf (by decide +kernel) covers
        exact ⟨.inl rfl, fun _ => by decide +kernel⟩
    · obtain ⟨child, mem, same⟩ := mem_held_of_holds enters.holds
      exact (unlisted mem (same ▸ covers_of_meets meets) lists).elim

/-- A second time, the patch finds one taint deleted, one merged and one put in. -/
theorem apply_again_taints :
    let result : Json :=
      .obj [("taints", .arr [taint "b" [("effect", .str "NoExecute")], taint "c" []])]
    Patch.apply [("taints", "key")] .strategic (.obj taintsTurn)
        (.obj [("taints", .arr [taint "a" [], taint "b" []])]) = .ok result
      ∧ Patch.apply [("taints", "key")] .strategic (.obj taintsTurn) result = .ok result := by
  intro result
  have applied : Patch.apply [("taints", "key")] .strategic (.obj taintsTurn)
      (.obj [("taints", .arr [taint "a" [], taint "b" []])]) = .ok result := by rfl
  exact ⟨applied, apply_again repeatable_taintsTurn applied⟩

/-- A patch can be applied, but to what it has made it does something else. -/
def ActsAgain (keys : List (String × String)) (patch doc : Json) : Prop :=
  ∃ result, Patch.apply keys .strategic patch doc = .ok result
    ∧ Patch.apply keys .strategic patch result ≠ .ok result

/-- A list that deletes a taint and puts it in again moves it to the end each time. Two taints of
one key are both put in where there is no list, and merged the next time. Of two taints of one key
in the document one goes each time. An element without a key goes in only once, one whose key is
merged away is not found again, and one whose key is a reserved name is put in each time. -/
theorem apply_acts_again :
    let keys := [("taints", "key")]
    let list (taints : List Json) : Json := .obj [("taints", .arr taints)]
    ActsAgain keys (list [taint "a" [("$patch", .str "delete")], taint "a" [], taint "c" []])
        (list [taint "a" [], taint "b" []])
      ∧ ActsAgain keys (list [taint "a" [("age", .int 1)], taint "a" [("age", .int 2)]]) (.obj [])
      ∧ ActsAgain keys (list [taint "a" [("$patch", .str "delete")]])
        (list [taint "a" [], taint "a" []])
      ∧ ActsAgain keys (list [.obj [("age", .int 1)]]) (.obj [])
      ∧ ActsAgain keys (list [.obj [("key", .null)]]) (list [.obj [("key", .null)]])
      ∧ ActsAgain keys (list [.obj [("key", .obj [("of", .null)])]])
        (list [.obj [("key", .obj [("of", .null)])]])
      ∧ ActsAgain [("taints", "$key")] (list [.obj [("$key", .str "a")]]) (list []) := by
  refine ⟨⟨_, rfl, ?_⟩, ⟨_, rfl, ?_⟩, ⟨_, rfl, ?_⟩, ⟨_, rfl, ?_⟩, ⟨_, rfl, ?_⟩, ⟨_, rfl, ?_⟩,
    ⟨_, rfl, ?_⟩⟩ <;> decide +kernel

end Patch

end FleetRegistry
