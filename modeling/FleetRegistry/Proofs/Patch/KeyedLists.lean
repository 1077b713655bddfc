import FleetRegistry.Proofs.Patch.Reserved
import Mathlib.Data.List.Induction
import Mathlib.Data.List.InsertIdx
import Mathlib.Data.List.Nodup

/-!
Lists whose elements are told apart by a key. A patch goes through such a list element by element,
and each element of the patch is about the one element of the list that has its key. So keys stay
distinct, elements that are not mentioned stay as they are, those that stay keep their order, and
new ones follow in the order in which they were put in, each at the last time it was.
-/
namespace FleetRegistry.Patch

open Json (Members)

/-! ## Names -/

/-- What an element of a patch is about: the element of a list that has this name, which is to go or
to be there. -/
structure Mention where
  name : String
  deletes : Bool
  deriving DecidableEq

def Mention.apply (names : List String) (m : Mention) : List String :=
  if m.deletes then names.erase m.name
  else if m.name ∈ names then names
  else names ++ [m.name]

variable {names : List String} {mentions : List Mention} {m : Mention} {name : String} {place : Nat}

def lastSays? (mentions : List Mention) (name : String) : Option Bool :=
  (mentions.filter (·.name = name)).getLast?.map (·.deletes)

/-- A name is there after some mentions: the last of them does not delete it, or there is none, and
it was there before. -/
def Present (names : List String) (mentions : List Mention) (name : String) : Prop :=
  lastSays? mentions name = some false ∨ lastSays? mentions name = none ∧ name ∈ names

def PutIn (names : List String) (mentions : List Mention) (place : Nat) (name : String) : Prop :=
  mentions[place]? = some ⟨name, false⟩ ∧ ¬ Present names (mentions.take place) name

def LastPutIn (names : List String) (mentions : List Mention) (place : Nat) (name : String) :
    Prop :=
  PutIn names mentions place name ∧ ∀ later, place < later → ¬ PutIn names mentions later name

def kept (names : List String) (mentions : List Mention) : List String :=
  names.filter fun name => ⟨name, true⟩ ∉ mentions

/-- How names stand after mentions: those that are there, each once, are those that no mention has
deleted, in their order, and then those that were put in, in the order of the last time. -/
structure Arranged (names : List String) (mentions : List Mention) (result : List String) :
    Prop where
  once : result.Nodup
  present : ∀ name, name ∈ result ↔ Present names mentions name
  order : ∃ added : List (String × Nat), result = kept names mentions ++ added.map (·.1)
    ∧ (added.map (·.2)).Pairwise (· < ·) ∧ ∀ entry ∈ added, LastPutIn names mentions entry.2 entry.1

theorem lastSays?_append (name : String) : lastSays? (mentions ++ [m]) name
    = if m.name = name then some m.deletes else lastSays? mentions name := by
  unfold lastSays?
  by_cases same : m.name = name <;> simp [List.filter_append, same]

theorem present_append : Present names (mentions ++ [m]) name
    ↔ if m.name = name then m.deletes = false else Present names mentions name := by
  unfold Present
  rw [lastSays?_append]
  by_cases same : m.name = name <;> simp [same]

theorem putIn_append : PutIn names (mentions ++ [m]) place name
    ↔ PutIn names mentions place name
      ∨ place = mentions.length ∧ m = ⟨name, false⟩ ∧ ¬ Present names mentions name := by
  unfold PutIn
  rcases Nat.lt_trichotomy place mentions.length with before | rfl | behind
  · rw [List.getElem?_append_left before, List.take_append_of_le_length (Nat.le_of_lt before)]
    simp [Nat.ne_of_lt before]
  · simp
  · rw [List.getElem?_eq_none (by simp; omega), List.getElem?_eq_none (Nat.le_of_lt behind)]
    simp [Nat.ne_of_gt behind]

theorem PutIn.lt (put : PutIn names mentions place name) : place < mentions.length :=
  (List.getElem?_eq_some_iff.1 put.1).1

theorem kept_of_deletes (deletes : m.deletes = true) :
    kept names (mentions ++ [m]) = (kept names mentions).filter (· != m.name) := by
  obtain ⟨deleted, _⟩ := m
  obtain rfl : _ = true := deletes
  rw [kept, kept, List.filter_filter]
  refine List.filter_congr fun name _ => ?_
  by_cases same : name = deleted <;> simp [same]

theorem kept_of_stays (stays : m.deletes = false) :
    kept names (mentions ++ [m]) = kept names mentions := by
  obtain ⟨mentioned, _⟩ := m
  obtain rfl : _ = false := stays
  exact List.filter_congr fun name _ => by simp

theorem LastPutIn.append (last : LastPutIn names mentions place name)
    (other : m ≠ ⟨name, false⟩ ∨ Present names mentions name) :
    LastPutIn names (mentions ++ [m]) place name := by
  refine ⟨putIn_append.2 (.inl last.1), fun later behind put => ?_⟩
  rcases putIn_append.1 put with put | ⟨-, same, absent⟩
  · exact last.2 later behind put
  · exact other.elim (fun other => other same) absent

namespace Arranged

variable {result : List String}

theorem nil (once : names.Nodup) : Arranged names [] names where
  once := once
  present name := by simp [Present, lastSays?]
  order := by
    have all : kept names [] = names := List.filter_eq_self.2 (by simp)
    exact ⟨[], by rw [all, List.map_nil, List.append_nil], .nil, List.forall_mem_nil _⟩

theorem erased (h : Arranged names mentions result) (deletes : m.deletes = true) :
    Arranged names (mentions ++ [m]) (result.erase m.name) where
  once := h.once.erase _
  present name := by
    rw [h.once.mem_erase_iff, h.present, present_append]
    by_cases same : m.name = name
    · simp [same, deletes]
    · simp [same, Ne.symm same]
  order := by
    obtain ⟨added, rfl, ascending, last⟩ := h.order
    refine ⟨added.filter (·.1 != m.name), ?_, ?_, fun entry mem => ?_⟩
    · rw [h.once.erase_eq_filter, List.filter_append, kept_of_deletes deletes, List.filter_map]
      rfl
    · exact ascending.sublist (List.filter_sublist.map _)
    · exact (last entry (List.mem_filter.1 mem).1).append (.inl (by rintro rfl; cases deletes))

theorem found (h : Arranged names mentions result) (stays : m.deletes = false)
    (there : m.name ∈ result) : Arranged names (mentions ++ [m]) result where
  once := h.once
  present name := by
    rw [h.present, present_append]
    by_cases same : m.name = name
    · subst same
      simp [stays, (h.present _).1 there]
    · simp [same]
  order := by
    obtain ⟨added, order, ascending, last⟩ := h.order
    refine ⟨added, by rw [kept_of_stays stays, order], ascending, fun entry mem => ?_⟩
    have present : Present names mentions entry.1 :=
      (h.present _).1 (order ▸ List.mem_append_right _ (List.mem_map_of_mem mem))
    exact (last entry mem).append (.inr present)

theorem putIn (h : Arranged names mentions result) (stays : m.deletes = false)
    (absent : m.name ∉ result) : Arranged names (mentions ++ [m]) (result ++ [m.name]) where
  once := List.nodup_append.2 ⟨h.once, List.nodup_singleton _, by
    rintro a mem b mem' rfl
    exact absent (List.mem_singleton.1 mem' ▸ mem)⟩
  present name := by
    rw [List.mem_append, List.mem_singleton, h.present, present_append]
    by_cases same : m.name = name
    · simp [same, stays]
    · simp [same, Ne.symm same]
  order := by
    obtain ⟨added, order, ascending, last⟩ := h.order
    have present {entry : String × Nat} (mem : entry ∈ added) : Present names mentions entry.1 :=
      (h.present _).1 (order ▸ List.mem_append_right _ (List.mem_map_of_mem mem))
    have now : PutIn names (mentions ++ [m]) mentions.length m.name :=
      putIn_append.2 (.inr ⟨rfl, by rw [← stays], mt (h.present _).2 absent⟩)
    refine ⟨added ++ [(m.name, mentions.length)], ?_, ?_, fun entry mem => ?_⟩
    · rw [kept_of_stays stays, order]
      simp
    · rw [List.map_append, List.pairwise_append]
      refine ⟨ascending, List.pairwise_singleton _ _, ?_⟩
      rintro place mem _ only
      obtain rfl := List.mem_singleton.1 only
      obtain ⟨entry, earlier, rfl⟩ := List.mem_map.1 mem
      exact (last entry earlier).1.lt
    · rcases List.mem_append.1 mem with mem | mem
      · exact (last entry mem).append (.inr (present mem))
      · obtain rfl := List.mem_singleton.1 mem
        refine ⟨now, fun later behind put => ?_⟩
        have := put.lt
        simp only [List.length_append, List.length_singleton] at this behind
        omega

theorem apply (h : Arranged names mentions result) (m : Mention) :
    Arranged names (mentions ++ [m]) (m.apply result) := by
  unfold Mention.apply
  split
  next deletes => exact h.erased deletes
  next stays =>
    have stays : m.deletes = false := Bool.eq_false_iff.2 stays
    split
    next there => exact h.found stays there
    next absent => exact h.putIn stays absent

end Arranged

theorem arranged_after (once : names.Nodup) (mentions : List Mention) :
    Arranged names mentions (mentions.foldl Mention.apply names) := by
  -- From the end, as what a mention does depends on those before it.
  induction mentions using List.reverseRecOn with
  | nil => exact .nil once
  | append_singleton mentions m ih =>
    rw [List.foldl_append]
    exact ih.apply m

/-! ## Elements -/

variable {keys : List (String × String)} {key : String}

/-- The name of an element: the text that it has under the key. -/
def nameOf? (key : String) (item : Json) : Option String := (item.member? key).bind Json.text?

def mention? (key : String) (item : Json) : Option Mention :=
  (nameOf? key item).map (⟨·, asksToDelete item⟩)

/-- The members of an object, if it is one, have distinct names, as in every document. -/
def DistinctMembers (item : Json) : Prop := ((item.members?.getD []).map (·.1)).Nodup

theorem find?_of_named {members : Members} (named : nameOf? key (.obj members) = some name) :
    members.find? key = some (.str name) := by
  obtain ⟨value, found, text⟩ := Option.bind_eq_some_iff.1 named
  cases value with
  | str other => exact found.trans (congrArg _ (congrArg _ (Option.some.inj text)))
  | _ => cases text

theorem nameOf?_of_find? {members : Members} (found : members.find? key = some (.str name)) :
    nameOf? key (.obj members) = some name := by
  simp [nameOf?, Json.member?, found, Json.text?]

theorem positionOf?_text (key name : String) (items : List Json) :
    positionOf? key (.str name) items
      = (items.map (nameOf? key)).findIdx? (· == some name) := by
  rw [List.findIdx?_map, positionOf?]
  congr 1
  funext item
  cases found : item.member? key with
  | none => simp [nameOf?, found]
  | some value => cases value <;> simp [nameOf?, found, Json.same, Json.text?]

theorem positionOf?_known {items : List Json} (known : items.map (nameOf? key) = names.map some)
    (name : String) : positionOf? key (.str name) items = names.idxOf? name := by
  rw [positionOf?_text, known, List.findIdx?_map]
  rfl

theorem nameOf?_strip (free : isReserved key = false) {members : Members}
    (named : nameOf? key (.obj members) = some name) :
    nameOf? key (strip (.obj members)) = some name := by
  refine nameOf?_of_find? ?_
  rw [find?_stripMembers free, find?_of_named named]
  rfl

theorem strategicMembers_scalar (free : isReserved key = false) {patch target result : Members}
    {value : Json} (scalar : value.isScalar = true) (distinct : (patch.map (·.1)).Nodup)
    (found : patch.find? key = some value)
    (merged : strategicMembers keys patch target = .ok result) :
    result.find? key = some value := by
  obtain ⟨middle, next, step, -, kept⟩ :=
    exists_step_of_mem distinct (Members.mem_of_find? found) merged
  rw [kept]
  cases step with
  | skips _ _ reserved => simp [free] at reserved
  | removes _ _ asked =>
    rcases asked with rfl | asked
    · cases scalar
    · cases value <;> simp_all [Json.isScalar, asksToDelete, Json.members?]
  | putsScalar => exact Members.find?_set_self _ _ _
  | putsList | mergesList | mergesObject => cases scalar

theorem nameOf?_merged (free : isReserved key = false) {members : Members} {target result : Json}
    (distinct : DistinctMembers (.obj members)) (named : nameOf? key (.obj members) = some name)
    (merged : strategic keys (.obj members) target = .ok result) :
    nameOf? key result = some name := by
  cases strategic_obj_eq_ok.1 merged with
  | replaces => exact nameOf?_strip free named
  | merges silent all =>
    exact nameOf?_of_find? (strategicMembers_scalar free rfl distinct (find?_of_named named) all)

/-! ## Lists -/

/-- What a list has to say of its elements: their names. -/
def Named (key : String) (items : List Json) (names : List String) : Prop :=
  items.map (nameOf? key) = names.map some

instance (item : Json) : Decidable (DistinctMembers item) :=
  inferInstanceAs (Decidable (List.Nodup _))

instance (key : String) (items : List Json) (names : List String) :
    Decidable (Named key items names) :=
  inferInstanceAs (Decidable (_ = _))

section

variable {item other : Json} {existing next : List Json}

theorem nameOf?_of_mention? (mentioned : mention? key item = some m) :
    nameOf? key item = some m.name ∧ m.deletes = asksToDelete item := by
  obtain ⟨name, named, rfl⟩ := Option.map_eq_some_iff.1 mentioned
  exact ⟨named, rfl⟩

theorem Named.name_of_place (known : Named key existing names) {i : Nat}
    (place : positionOf? key (.str name) existing = some i) (found : existing[i]? = some item) :
    nameOf? key item = some name := by
  rw [positionOf?_known known, List.idxOf?_eq_some_iff] at place
  obtain ⟨inside, same, _⟩ := place
  have there := congrArg (·[i]?) known
  simpa [found, List.getElem?_eq_getElem inside, same] using there

theorem ItemStep.named (step : ItemStep keys key item existing next)
    (free : isReserved key = false) (known : Named key existing names)
    (distinct : DistinctMembers item) (mentioned : mention? key item = some m) :
    Named key next (m.apply names) := by
  obtain ⟨named, deletes⟩ := nameOf?_of_mention? mentioned
  unfold Mention.apply
  cases step with
  | deletesNone found absent asked =>
    cases (find?_of_named named).symm.trans found
    rw [positionOf?_known known] at absent
    rw [deletes, if_pos asked, List.erase_eq_eraseIdx, absent]
    exact known
  | appends found absent stays =>
    cases (find?_of_named named).symm.trans found
    rw [positionOf?_known known, List.idxOf?_eq_none_iff] at absent
    rw [deletes, stays, if_neg Bool.false_ne_true, if_neg absent, Named, List.map_append,
      List.map_append, known, List.map_singleton, nameOf?_strip free named]
    rfl
  | deletes found place asked =>
    cases (find?_of_named named).symm.trans found
    rw [positionOf?_known known] at place
    rw [deletes, if_pos asked, List.erase_eq_eraseIdx, place, Named, ← List.eraseIdx_map, known,
      List.eraseIdx_map]
  | merges found place stays object =>
    cases (find?_of_named named).symm.trans found
    rw [positionOf?_known known, List.idxOf?_eq_some_iff] at place
    obtain ⟨inside, same, _⟩ := place
    have there : m.name ∈ names := same ▸ List.getElem_mem inside
    rw [deletes, stays, if_neg Bool.false_ne_true, if_pos there, Named, List.map_set, known,
      nameOf?_merged free distinct named object, ← same, ← List.map_set, List.set_getElem_self]

theorem ItemStep.mem_of_ne (step : ItemStep keys key item existing next)
    (known : Named key existing names) (mentioned : mention? key item = some m)
    (mem : other ∈ existing) (ne : nameOf? key other ≠ some m.name) : other ∈ next := by
  have named := (nameOf?_of_mention? mentioned).1
  obtain ⟨j, there⟩ := List.mem_iff_getElem?.1 mem
  cases step with
  | deletesNone => exact mem
  | appends => exact List.mem_append_left _ mem
  | deletes found place =>
    cases (find?_of_named named).symm.trans found
    refine List.mem_eraseIdx_iff_getElem?.2 ⟨j, ?_, there⟩
    rintro rfl
    exact ne (known.name_of_place place there)
  | @merges _ _ _ _ i found place =>
    cases (find?_of_named named).symm.trans found
    have apart : i ≠ j := by
      rintro rfl
      exact ne (known.name_of_place place there)
    exact List.mem_of_getElem? ((List.getElem?_set_ne apart).trans there)

end

/-- What a list of a patch does to a list: to its names what the mentions say, and nothing to the
elements that are not mentioned. -/
theorem strategicItems_named {patch existing result : List Json} (free : isReserved key = false)
    (known : Named key existing names) (distinct : ∀ item ∈ patch, DistinctMembers item)
    (mentioned : patch.map (mention? key) = mentions.map some)
    (merged : strategicItems keys key patch existing = .ok result) :
    Named key result (mentions.foldl Mention.apply names)
      ∧ ∀ item ∈ existing, (∀ m ∈ mentions, nameOf? key item ≠ some m.name) → item ∈ result := by
  induction patch generalizing existing names mentions with
  | nil =>
    rw [strategicItems, Except.ok.injEq] at merged
    obtain rfl : mentions = [] := List.map_eq_nil_iff.1 mentioned.symm
    exact ⟨merged ▸ known, fun item mem _ => merged ▸ mem⟩
  | cons item rest ih =>
    obtain ⟨next, step, later⟩ := strategicItems_cons_eq_ok.1 merged
    obtain ⟨m, mentions, rfl, first, mentioned⟩ :=
      List.map_eq_cons_iff.1 mentioned.symm
    obtain ⟨here, distinct⟩ := List.forall_mem_cons.1 distinct
    obtain ⟨named, unchanged⟩ :=
      ih (step.named free known here first.symm) distinct mentioned.symm later
    refine ⟨named, fun item mem silent => ?_⟩
    obtain ⟨ne, silent⟩ := List.forall_mem_cons.1 silent
    exact unchanged item (step.mem_of_ne known first.symm mem ne) silent

/-- A merge by key keeps identity and order: every element has a name of its own, those that are not
mentioned are as they were, and the names stand as the mentions arrange them. A name that was last
mentioned to delete it is gone. -/
theorem strategicItems_arranged {patch existing result : List Json} (free : isReserved key = false)
    (known : Named key existing names) (once : names.Nodup)
    (distinct : ∀ item ∈ patch, DistinctMembers item)
    (mentioned : patch.map (mention? key) = mentions.map some)
    (merged : strategicItems keys key patch existing = .ok result) :
    (∃ after, Named key result after ∧ Arranged names mentions after
      ∧ ∀ name, lastSays? mentions name = some true → name ∉ after)
      ∧ ∀ item ∈ existing, (∀ m ∈ mentions, nameOf? key item ≠ some m.name) → item ∈ result := by
  obtain ⟨named, unchanged⟩ := strategicItems_named free known distinct mentioned merged
  have arranged := arranged_after once mentions
  refine ⟨⟨_, named, arranged, fun name deleted mem => ?_⟩, unchanged⟩
  simpa [Present, deleted] using (arranged.present name).1 mem

def taintsPatch : List Json := [
  .obj [("key", .str "b"), ("effect", .str "NoExecute")],
  .obj [("$patch", .str "delete"), ("key", .str "c")],
  .obj [("key", .str "e")],
  .obj [("key", .str "a"), ("$patch", .str "replace")],
  .obj [("key", .str "e"), ("$patch", .str "delete")],
  .obj [("key", .str "c"), ("effect", .str "NoExecute")],
  .obj [("effect", .str "NoSchedule"), ("key", .str "e")],
  .obj [("key", .str "f"), ("$patch", .str "delete")]]

theorem strategicItems_arranged_taints :
    let taint (name effect : String) : Json := .obj [("key", .str name), ("effect", .str effect)]
    let taints := ["a", "b", "c", "d"].map (taint · "NoSchedule")
    let result : List Json := [.obj [("key", .str "a")], taint "b" "NoExecute",
      taint "d" "NoSchedule", taint "c" "NoExecute",
      .obj [("effect", .str "NoSchedule"), ("key", .str "e")]]
    strategicItems [] "key" taintsPatch taints = .ok result
      ∧ ∃ mentions, taintsPatch.map (mention? "key") = mentions.map some
        ∧ Arranged ["a", "b", "c", "d"] mentions ["a", "b", "d", "c", "e"]
        ∧ ∀ name, lastSays? mentions name = some true → name ∉ ["a", "b", "d", "c", "e"] := by
  intro taint taints result
  have merged : strategicItems [] "key" taintsPatch taints = .ok result := by
    rfl
  let mentions : List Mention := [⟨"b", false⟩, ⟨"c", true⟩, ⟨"e", false⟩, ⟨"a", false⟩,
    ⟨"e", true⟩, ⟨"c", false⟩, ⟨"e", false⟩, ⟨"f", true⟩]
  have mentioned : taintsPatch.map (mention? "key") = mentions.map some := by decide +kernel
  obtain ⟨⟨after, named, arranged, gone⟩, _⟩ := strategicItems_arranged (by decide +kernel)
    (by decide +kernel : Named "key" taints ["a", "b", "c", "d"]) (by decide +kernel)
    (by decide +kernel) mentioned merged
  have after_eq : ["a", "b", "d", "c", "e"] = after :=
    List.map_injective_iff.2 (fun _ _ => Option.some.inj) named
  exact ⟨merged, mentions, mentioned, after_eq ▸ arranged, after_eq ▸ gone⟩

end FleetRegistry.Patch
