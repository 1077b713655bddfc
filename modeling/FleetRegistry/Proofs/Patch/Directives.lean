import FleetRegistry.Proofs.Patch.KeyedLists
import Mathlib.Logic.Relation

/-!
Which directives of a patch are heard. A merge comes from an object of the patch to the objects
among its members, and to the elements of a list that is merged by key for which the list of the
document has one of the same key. An element that is new to the list is put in as it is, less its
reserved names, and nobody asks what they were. So an unknown directive is refused wherever the
merge comes to it, and what it comes to depends on the document.
-/
namespace FleetRegistry.Patch

open Json (Members)

variable {keys : List (String × String)} {patch object child target : Members} {doc there : Json}

/-- The members of an object are merged one by one: it does not ask to be put in the place of what
is there, nor that it be deleted. -/
def Opens (object : Members) : Prop :=
  directive? object ≠ some "replace" ∧ directive? object ≠ some "delete"

/-- One object of a patch stands in another one at a place where directives have a meaning: under a
name that is not reserved, or in a list that is merged by a key. -/
inductive Holds (keys : List (String × String)) : Json → Json → Prop
  | member {patch child : Members} {name : String} (opens : Opens patch)
    (free : isReserved name = false) (mem : (name, .obj child) ∈ patch) :
    Holds keys (.obj patch) (.obj child)
  | element {patch child : Members} {name key : String} {items : List Json} (opens : Opens patch)
    (free : isReserved name = false) (keyed : keys.lookup name = some key)
    (mem : (name, .arr items) ∈ patch) (item : .obj child ∈ items) :
    Holds keys (.obj patch) (.obj child)

instance (object : Members) : Decidable (Opens object) := inferInstanceAs (Decidable (_ ∧ _))

def held (keys : List (String × String)) (patch : Members) : List Members :=
  if Opens patch then
    (patch.filter (!isReserved ·.1)).flatMap fun member =>
      match member.2 with
      | .obj child => [child]
      | .arr items => if (keys.lookup member.1).isSome then items.filterMap Json.members? else []
      | _ => []
  else []

/-- A patch has an object at such a place, at any depth. -/
abbrev Covers (keys : List (String × String)) : Json → Json → Prop :=
  Relation.ReflTransGen (Holds keys)

/-- Where a merge goes on from an object of the patch and what it is merged into. An element of a
list is looked for in the list that the elements before it have left. -/
inductive Enters (keys : List (String × String)) : Json × Json → Json × Json → Prop
  | member {patch child : Members} {name : String} {target : Json} (opens : Opens patch)
    (free : isReserved name = false) (mem : (name, .obj child) ∈ patch)
    (stays : asksToDelete (.obj child) = false) :
    Enters keys (.obj patch, target) (.obj child, (target.member? name).getD (.obj []))
  | element {patch child : Members} {name key : String} {target value : Json}
    {before after existing middle : List Json} {i : Nat} (opens : Opens patch)
    (free : isReserved name = false) (mem : (name, .arr (before ++ .obj child :: after)) ∈ patch)
    (keyed : keyedTarget? keys name (target.members?.getD []) = some (key, existing))
    (earlier : strategicItems keys key before existing = .ok middle)
    (found : child.find? key = some value) (place : positionOf? key value middle = some i)
    (stays : asksToDelete (.obj child) = false) :
    Enters keys (.obj patch, target) (.obj child, middle.getD i .null)

/-- A merge comes to an object of the patch, and to what that is merged into. -/
abbrev Meets (keys : List (String × String)) : Json × Json → Json × Json → Prop :=
  Relation.ReflTransGen (Enters keys)

def HasUnknownDirective (object : Members) : Prop :=
  ∃ directive, directive? object = some directive ∧ directive ≠ "replace" ∧ directive ≠ "delete"

/-- An element of a list that is merged by key has nothing under that key. -/
def LacksKey (keys : List (String × String)) (object : Members) (there : Json) : Prop :=
  Opens object ∧ ∃ name items key existing, isReserved name = false ∧ (name, .arr items) ∈ object
    ∧ keyedTarget? keys name (there.members?.getD []) = some (key, existing)
    ∧ ∃ item ∈ items, item.member? key = none

def Sound (keys : List (String × String)) (object : Members) (there : Json) : Prop :=
  ¬ HasUnknownDirective object ∧ ¬ LacksKey keys object there

/-- The names of each object that a patch covers are distinct, as they are in every document. -/
def DistinctNames (keys : List (String × String)) (patch : Json) : Prop :=
  ∀ object, Covers keys patch object → DistinctMembers object

theorem find?_members (value : Json) (name : String) :
    Members.find? name (value.members?.getD []) = value.member? name := by
  cases value <;> rfl

theorem opens_of_silent (silent : directive? object = none) : Opens object := by
  simp [Opens, silent]

theorem mem_held_of_holds {value : Json} (holds : Holds keys (.obj patch) value) :
    ∃ child ∈ held keys patch, value = .obj child := by
  unfold held
  cases holds with
  | member opens free mem =>
    rw [if_pos opens]
    refine ⟨_, List.mem_flatMap.2 ⟨_, List.mem_filter.2 ⟨mem, by simp [free]⟩, ?_⟩, rfl⟩
    exact List.mem_singleton_self _
  | element opens free keyed mem item =>
    rw [if_pos opens]
    refine ⟨_, List.mem_flatMap.2 ⟨_, List.mem_filter.2 ⟨mem, by simp [free]⟩, ?_⟩, rfl⟩
    simp only [keyed, Option.isSome_some, if_true]
    exact List.mem_filterMap.2 ⟨_, item, rfl⟩

theorem Enters.holds {outer inner : Json × Json} (enters : Enters keys outer inner) :
    Holds keys outer.1 inner.1 := by
  cases enters with
  | member opens free mem => exact .member opens free mem
  | element opens free mem keyed =>
    exact .element opens free (keyedTarget?_eq_some.1 keyed).1 mem
      (List.mem_append_right _ List.mem_cons_self)

theorem Enters.stays {outer : Json × Json} {inner there : Json}
    (enters : Enters keys outer (inner, there)) :
    ∃ child, inner = .obj child ∧ asksToDelete inner = false := by
  cases enters with
  | member _ _ _ stays => exact ⟨_, rfl, stays⟩
  | element _ _ _ _ _ _ _ stays => exact ⟨_, rfl, stays⟩

theorem Holds.part {outer inner : Json} (holds : Holds keys outer inner) :
    Relation.TransGen Json.Part inner outer := by
  cases holds with
  | member _ _ mem => exact .single (.value mem)
  | element _ _ _ mem item => exact .tail (.single (.item item)) (.value mem)

theorem covers_of_meets {outer inner : Json × Json} (meets : Meets keys outer inner) :
    Covers keys outer.1 inner.1 :=
  Relation.ReflTransGen.lift Prod.fst (fun _ _ => Enters.holds) _ _ meets

theorem eq_or_held_of_covers {value : Json} (covers : Covers keys (.obj patch) value) :
    value = .obj patch ∨ ∃ child ∈ held keys patch, Covers keys (.obj child) value := by
  rcases Relation.ReflTransGen.cases_head covers with same | ⟨_, holds, covers⟩
  · exact .inl same.symm
  · obtain ⟨child, mem, rfl⟩ := mem_held_of_holds holds
    exact .inr ⟨child, mem, covers⟩

theorem distinctNames_of_held (distinct : DistinctMembers (.obj patch))
    (inner : ∀ child ∈ held keys patch, DistinctNames keys (.obj child)) :
    DistinctNames keys (.obj patch) := by
  intro object covers
  rcases eq_or_held_of_covers covers with rfl | ⟨child, mem, covers⟩
  · exact distinct
  · exact inner child mem object covers

theorem DistinctNames.of_holds {outer inner : Json} (distinct : DistinctNames keys outer)
    (holds : Holds keys outer inner) : DistinctNames keys inner :=
  fun object covers => distinct object (covers.head holds)

/-! ## A merge that succeeds -/

theorem members_of_opens (opens : Opens patch) {result : Json}
    (merged : strategic keys (.obj patch) doc = .ok result) :
    ∃ members, result = .obj members
      ∧ strategicMembers keys patch (doc.members?.getD []) = .ok members := by
  cases strategic_obj_eq_ok.1 merged with
  | replaces asked => exact (opens.1 asked).elim
  | merges _ members => exact ⟨_, rfl, members⟩

theorem keyedTarget?_congr {name : String} {target target' : Members}
    (same : target'.find? name = target.find? name) :
    keyedTarget? keys name target' = keyedTarget? keys name target := by
  unfold keyedTarget?
  rw [same]

theorem Enters.succeeds {outer inner : Json × Json} (enters : Enters keys outer inner)
    (distinct : DistinctMembers outer.1) {result : Json}
    (merged : strategic keys outer.1 outer.2 = .ok result) :
    ∃ result', strategic keys inner.1 inner.2 = .ok result' := by
  cases enters with
  | @member patch child name target opens free mem stays =>
    obtain ⟨members, -, all⟩ := members_of_opens opens merged
    obtain ⟨middle, next, step, same, -⟩ := exists_step_of_mem distinct mem all
    dsimp only at same ⊢
    rw [find?_members] at same
    rw [← same]
    cases step with
    | skips _ _ reserved => simp [free] at reserved
    | removes _ _ asked => rcases asked with null | asked <;> simp_all
    | mergesObject _ _ object => exact ⟨_, object⟩
    | putsScalar _ _ scalar => cases scalar
  | @element patch child name key target value before after existing middle' i opens free mem keyed
      earlier found place stays =>
    obtain ⟨members, -, all⟩ := members_of_opens opens merged
    obtain ⟨middle, next, step, same, -⟩ := exists_step_of_mem distinct mem all
    rw [← keyedTarget?_congr same] at keyed
    cases step with
    | skips _ _ reserved => simp [free] at reserved
    | removes _ _ asked => rcases asked with null | asked <;> cases ‹_›
    | putsList _ _ unkeyed => simp [unkeyed] at keyed
    | mergesList _ keyed' elements =>
      cases keyed'.symm.trans keyed
      obtain ⟨_, earlier', elements⟩ := strategicItems_append_eq_ok.1 elements
      cases earlier'.symm.trans earlier
      obtain ⟨_, item, -⟩ := strategicItems_cons_eq_ok.1 elements
      cases item with
      | deletesNone _ _ asked | deletes _ _ asked => simp [stays] at asked
      | appends found' absent =>
        cases found'.symm.trans found
        simp [absent] at place
      | merges found' place' _ object =>
        cases found'.symm.trans found
        cases place'.symm.trans place
        exact ⟨_, object⟩
    | putsScalar _ _ scalar => cases scalar

theorem sound_of_succeeds (distinct : DistinctMembers (.obj object)) {result : Json}
    (merged : strategic keys (.obj object) there = .ok result) : Sound keys object there := by
  constructor
  · rintro ⟨directive, asked, notReplace, notDelete⟩
    simp [strategic, asked, notReplace, notDelete] at merged
  · rintro ⟨opens, name, items, key, existing, free, mem, keyed, item, listed, lacks⟩
    obtain ⟨members, -, all⟩ := members_of_opens opens merged
    obtain ⟨middle, next, step, same, -⟩ := exists_step_of_mem distinct mem all
    rw [← keyedTarget?_congr same] at keyed
    cases step with
    | skips _ _ reserved => simp [free] at reserved
    | removes _ _ asked => rcases asked with null | asked <;> cases ‹_›
    | putsList _ _ unkeyed => simp [unkeyed] at keyed
    | mergesList _ keyed' elements =>
      cases keyed'.symm.trans keyed
      obtain ⟨before, after, rfl⟩ := List.append_of_mem listed
      obtain ⟨_, -, elements⟩ := strategicItems_append_eq_ok.1 elements
      obtain ⟨_, step, -⟩ := strategicItems_cons_eq_ok.1 elements
      cases step <;> simp_all [Json.member?]
    | putsScalar _ _ scalar => cases scalar

/-! ## A merge that can go on -/

theorem strategicMembers_succeeds (distinct : (patch.map (·.1)).Nodup)
    (steps : ∀ member ∈ patch, ∀ middle, Members.find? member.1 middle = target.find? member.1 →
      ∃ next, MemberStep keys member middle next) :
    ∃ result, strategicMembers keys patch target = .ok result := by
  induction patch generalizing target with
  | nil => exact ⟨target, by rw [strategicMembers]⟩
  | cons member rest ih =>
    obtain ⟨first, others⟩ := List.forall_mem_cons.1 steps
    obtain ⟨absent, distinct⟩ := List.nodup_cons.1 distinct
    obtain ⟨next, step⟩ := first target rfl
    have later : ∀ other ∈ rest, ∀ middle, Members.find? other.1 middle = next.find? other.1 →
        ∃ next, MemberStep keys other middle next := fun other mem middle same => by
      have ne : other.1 ≠ member.1 := fun eq => absent (List.mem_map.2 ⟨other, mem, eq⟩)
      exact others other mem middle (same.trans (step.find?_of_ne ne))
    obtain ⟨result, merged⟩ := ih distinct later
    exact ⟨result, strategicMembers_cons_eq_ok.2 ⟨next, step, merged⟩⟩

theorem strategicItems_succeeds {key : String} {items existing : List Json}
    (steps : ∀ before item after middle, items = before ++ item :: after →
      strategicItems keys key before existing = .ok middle →
      ∃ next, ItemStep keys key item middle next) :
    ∃ result, strategicItems keys key items existing = .ok result := by
  induction items generalizing existing with
  | nil => exact ⟨existing, by rw [strategicItems]⟩
  | cons item rest ih =>
    obtain ⟨next, step⟩ := steps [] item rest existing rfl (by rw [strategicItems])
    obtain ⟨result, merged⟩ : ∃ result, strategicItems keys key rest next = .ok result :=
      ih fun before other after middle split earlier =>
        steps (item :: before) other after middle (by rw [split, List.cons_append])
          (strategicItems_cons_eq_ok.2 ⟨next, step, earlier⟩)
    exact ⟨result, strategicItems_cons_eq_ok.2 ⟨next, step, merged⟩⟩

theorem exists_itemStep_of_keyed {key : String} {item : Json} {middle : List Json}
    (keyed : item.member? key ≠ none)
    (merges : ∀ (child : Members) value i, item = .obj child → child.find? key = some value →
      positionOf? key value middle = some i → asksToDelete item = false →
      ∃ result, strategic keys item (middle.getD i .null) = .ok result) :
    ∃ next, ItemStep keys key item middle next := by
  cases item with
  | obj child =>
    obtain ⟨value, found⟩ := Option.ne_none_iff_exists'.1 keyed
    cases place : positionOf? key value middle with
    | none =>
      cases asked : asksToDelete (.obj child) with
      | true => exact ⟨_, .deletesNone found place asked⟩
      | false => exact ⟨_, .appends found place asked⟩
    | some i =>
      cases asked : asksToDelete (.obj child) with
      | true => exact ⟨_, .deletes found place asked⟩
      | false =>
        obtain ⟨result, merged⟩ := merges child value i rfl found place asked
        exact ⟨_, .merges found place asked merged⟩
  | _ => exact (keyed rfl).elim

theorem exists_memberStep_of_enters {name : String} {value : Json} {middle : Members}
    (opens : Opens patch) (sound : Sound keys patch doc) (mem : (name, value) ∈ patch)
    (same : middle.find? name = (doc.members?.getD []).find? name)
    (succeeds : ∀ child there, Enters keys (.obj patch, doc) (child, there) →
      ∃ result, strategic keys child there = .ok result) :
    ∃ next, MemberStep keys (name, value) middle next := by
  cases free : isReserved name with
  | true => exact ⟨_, .skips value middle free⟩
  | false =>
    cases value with
    | null => exact ⟨_, .removes middle free (.inl rfl)⟩
    | bool | int | float | str => exact ⟨_, .putsScalar middle free rfl⟩
    | arr items =>
      cases keyed : keyedTarget? keys name middle with
      | none => exact ⟨_, .putsList items free keyed⟩
      | some target =>
        obtain ⟨key, existing⟩ := target
        have there := (keyedTarget?_congr same).symm.trans keyed
        obtain ⟨merged, elements⟩ :
            ∃ merged, strategicItems keys key items existing = .ok merged := by
          refine strategicItems_succeeds fun before item after middle' split earlier => ?_
          have listed : item ∈ items := split ▸ List.mem_append_right _ List.mem_cons_self
          refine exists_itemStep_of_keyed (fun lacks => ?_) ?_
          · exact sound.2 ⟨opens, name, items, key, existing, free, mem, there, item, listed, lacks⟩
          · rintro child value i rfl found place stays
            exact succeeds _ _ (.element opens free (split ▸ mem) there earlier found place stays)
        exact ⟨_, .mergesList free keyed elements⟩
    | obj child =>
      cases asked : asksToDelete (.obj child) with
      | true => exact ⟨_, .removes middle free (.inr asked)⟩
      | false =>
        obtain ⟨merged, object⟩ := succeeds _ _ (.member opens free mem asked)
        rw [← find?_members, ← same] at object
        exact ⟨_, .mergesObject free asked object⟩

/-- A merge succeeds exactly if everything is sound that it comes to. -/
theorem strategic_succeeds_iff (distinct : DistinctNames keys (.obj patch))
    (stays : asksToDelete (.obj patch) = false) :
    (∃ result, strategic keys (.obj patch) doc = .ok result) ↔
      ∀ object there, Meets keys (.obj patch, doc) (.obj object, there) →
        Sound keys object there := by
  constructor
  · rintro ⟨result, merged⟩ object there meets
    -- Down the way to the object, each merge is part of the one before.
    suffices arrived : ∀ outer inner, Meets keys outer inner → DistinctNames keys outer.1 →
        (∃ result, strategic keys outer.1 outer.2 = .ok result) →
        ∃ result, strategic keys inner.1 inner.2 = .ok result by
      obtain ⟨result, merged⟩ := arrived _ _ meets distinct ⟨result, merged⟩
      exact sound_of_succeeds (distinct _ (covers_of_meets meets)) merged
    intro outer inner meets
    induction meets using Relation.ReflTransGen.head_induction_on with
    | refl => exact fun _ merged => merged
    | head enters _ ih =>
      rintro distinct ⟨result, merged⟩
      exact ih (distinct.of_holds enters.holds) (enters.succeeds (distinct _ .refl) merged)
  · suffices general : ∀ value patch, value = .obj patch → DistinctNames keys value →
        asksToDelete value = false → ∀ doc, (∀ object there,
          Meets keys (value, doc) (.obj object, there) → Sound keys object there) →
        ∃ result, strategic keys value doc = .ok result from
      general _ patch rfl distinct stays doc
    intro value
    induction value using Json.parts_induction with
    | step value ih =>
      rintro patch rfl distinct stays doc sound
      have here : Sound keys patch doc := sound _ _ .refl
      cases asked : directive? patch with
      | some directive =>
        obtain rfl : directive = "replace" := by
          by_contra other
          have delete : directive ≠ "delete" := by
            rintro rfl
            simp [asksToDelete_obj, asked] at stays
          exact here.1 ⟨directive, asked, other, delete⟩
        exact ⟨_, strategic_obj_eq_ok.2 (.replaces doc asked)⟩
      | none =>
        have opens : Opens patch := opens_of_silent asked
        have inner : ∀ child there, Enters keys (.obj patch, doc) (child, there) →
            ∃ result, strategic keys child there = .ok result := by
          intro value there enters
          obtain ⟨child, rfl, stays⟩ := enters.stays
          exact ih _ enters.holds.part child rfl (distinct.of_holds enters.holds) stays there
            fun object there meets => sound object there (meets.head enters)
        obtain ⟨merged, all⟩ :
            ∃ merged, strategicMembers keys patch (doc.members?.getD []) = .ok merged :=
          strategicMembers_succeeds (distinct _ .refl) fun member mem middle same =>
            exists_memberStep_of_enters opens here mem same inner
        exact ⟨_, strategic_obj_eq_ok.2 (.merges (.inl asked) all)⟩

/-! ## What is refused -/

theorem stays_of_covers_unknown {value : Json} (covers : Covers keys value (.obj object))
    (unknown : HasUnknownDirective object) : asksToDelete value = false := by
  rcases Relation.ReflTransGen.cases_head covers with rfl | ⟨_, holds, -⟩
  · obtain ⟨directive, asked, -, notDelete⟩ := unknown
    simp [asksToDelete_obj, asked, notDelete]
  · cases holds with
    | member opens | element opens => exact decide_eq_false opens.2

theorem exists_meets_of_covers_nil (keys : List (String × String)) {value : Json}
    (covers : Covers [] value (.obj object)) (unknown : HasUnknownDirective object) (doc : Json) :
    ∃ there, Meets keys (value, doc) (.obj object, there) := by
  induction covers using Relation.ReflTransGen.head_induction_on generalizing doc with
  | refl => exact ⟨doc, .refl⟩
  | head holds covers ih =>
    cases holds with
    | member opens free mem =>
      obtain ⟨there, meets⟩ := ih _
      exact ⟨there, meets.head (.member opens free mem (stays_of_covers_unknown covers unknown))⟩
    | element _ _ keyed => cases keyed

theorem apply_of_stays (stays : asksToDelete (.obj patch) = false) :
    Patch.apply keys .strategic (.obj patch) doc = strategic keys (.obj patch) doc := by
  simp only [Patch.apply, Json.isObject, stays, Bool.not_true, Bool.false_eq_true, if_false]

theorem apply_of_deletes (asked : asksToDelete (.obj patch) = true) :
    Patch.apply keys .strategic (.obj patch) doc = .error .deletesAll := by
  simp only [Patch.apply, Json.isObject, asked, Bool.not_true, Bool.false_eq_true, if_false,
    if_true]

theorem exists_error_iff {α : Type} {outcome : Except PatchError α} :
    (∃ error, outcome = .error error) ↔ ¬ ∃ result, outcome = .ok result := by
  cases outcome <;> simp

/-- A patch is refused if it asks to delete the whole document, and otherwise exactly if its merge
comes to an object with an unknown directive, or to a list with an element that lacks the key of
that list. It comes to every object that the patch covers through members alone; to those in
elements of lists only where the document has such an element. -/
theorem apply_refused_iff (keys : List (String × String)) {patch : Members} (doc : Json)
    (distinct : DistinctNames keys (.obj patch)) :
    let refused := ∃ error, Patch.apply keys .strategic (.obj patch) doc = .error error
    (refused ↔ directive? patch = some "delete" ∨
      ∃ object there, Meets keys (.obj patch, doc) (.obj object, there)
        ∧ (HasUnknownDirective object ∨ LacksKey keys object there))
    ∧ ∀ object, Covers [] (.obj patch) (.obj object) → HasUnknownDirective object → refused := by
  intro refused
  have iff : refused ↔ directive? patch = some "delete" ∨
      ∃ object there, Meets keys (.obj patch, doc) (.obj object, there)
        ∧ (HasUnknownDirective object ∨ LacksKey keys object there) := by
    cases asked : asksToDelete (.obj patch) with
    | true => exact iff_of_true ⟨_, apply_of_deletes asked⟩ (.inl (of_decide_eq_true asked))
    | false =>
      have notDelete : directive? patch ≠ some "delete" := of_decide_eq_false asked
      simp only [refused, apply_of_stays asked, notDelete, false_or]
      rw [exists_error_iff, strategic_succeeds_iff distinct asked]
      simp only [Sound, not_forall, not_and_or, not_not, exists_prop]
  exact ⟨iff, fun object covers unknown =>
    have ⟨there, meets⟩ := exists_meets_of_covers_nil keys covers unknown doc
    iff.2 (.inr ⟨object, there, meets, .inl unknown⟩)⟩

def misdirected : Members := [("$patch", .str "explode"), ("idle", .int 60)]

def httpOptions : Members := [("name", .str "http"), ("options", .obj misdirected)]

/-- One port as it is, and one with an unknown directive in its options. -/
def portsPatch : Members := [("ports", .arr [.obj [("name", .str "dns"), ("port", .int 53)],
  .obj httpOptions])]

theorem covers_misdirected : Covers [("ports", "name")] (.obj portsPatch) (.obj misdirected) := by
  refine .tail (.single (.element (opens_of_silent rfl) (by decide) rfl List.mem_cons_self
    (.tail _ List.mem_cons_self))) ?_
  exact .member (opens_of_silent rfl) (by decide : isReserved "options" = false)
    (.tail _ List.mem_cons_self)

theorem distinctNames_portsPatch : DistinctNames [("ports", "name")] (.obj portsPatch) := by
  have leaf (object : Members) (distinct : DistinctMembers (.obj object))
      (nothing : held [("ports", "name")] object = []) :
      DistinctNames [("ports", "name")] (.obj object) :=
    distinctNames_of_held distinct (nothing ▸ List.forall_mem_nil _)
  refine distinctNames_of_held (by decide +kernel) (List.forall_mem_cons.2 ⟨?_, ?_⟩)
  · exact leaf _ (by decide +kernel) rfl
  · refine List.forall_mem_singleton.2 (distinctNames_of_held (by decide +kernel) ?_)
    exact List.forall_mem_singleton.2 (leaf _ (by decide +kernel) rfl)

/-- A document with such a port refuses the patch. -/
theorem apply_refused_iff_ports :
    let keys := [("ports", "name")]
    let http : Json := .obj [("name", .str "http"), ("port", .int 80)]
    (∃ error, Patch.apply keys .strategic (.obj portsPatch) (.obj [("ports", .arr [http])])
        = .error error) ∧ HasUnknownDirective misdirected := by
  intro keys http
  have unknown : HasUnknownDirective misdirected := ⟨"explode", rfl, by decide, by decide⟩
  let dns : Json := .obj [("name", .str "dns"), ("port", .int 53)]
  have mem : ("ports", Json.arr ([dns] ++ .obj httpOptions :: [])) ∈ portsPatch :=
    List.mem_cons_self
  have element : Enters keys (.obj portsPatch, .obj [("ports", .arr [http])])
      (.obj httpOptions, [http, dns].getD 0 .null) :=
    .element (opens_of_silent rfl) (by decide) mem rfl rfl rfl rfl rfl
  have options : Enters keys (.obj httpOptions, http) (.obj misdirected, .obj []) :=
    .member (opens_of_silent rfl) (by decide : isReserved "options" = false)
      (.tail _ List.mem_cons_self) rfl
  have ⟨iff, _⟩ := apply_refused_iff keys (.obj [("ports", .arr [http])]) distinctNames_portsPatch
  exact ⟨iff.2 (.inr ⟨_, _, .tail (.single element) options, .inl unknown⟩), unknown⟩

/-- In a document without such a port, and in one without ports, the directive is lost, and the rest
of the element goes in. -/
theorem unknown_directive_dropped :
    let keys := [("ports", "name")]
    let dns : Json := .obj [("name", .str "dns"), ("port", .int 53)]
    let http : Json := .obj [("name", .str "http"), ("options", .obj [("idle", .int 60)])]
    Covers keys (.obj portsPatch) (.obj misdirected) ∧ HasUnknownDirective misdirected
      ∧ Patch.apply keys .strategic (.obj portsPatch) (.obj [("ports", .arr [])])
        = .ok (.obj [("ports", .arr [dns, http])])
      ∧ Patch.apply keys .strategic (.obj portsPatch) (.obj [])
        = .ok (.obj [("ports", .arr [dns, http])]) := by
  intro keys dns http
  exact ⟨covers_misdirected, ⟨"explode", rfl, by decide, by decide⟩, rfl, rfl⟩

end FleetRegistry.Patch
