import FleetRegistry.Proofs.Store.Consistency
import FleetRegistry.Proofs.Store.Entries
import FleetRegistry.Proofs.Store.Token
import FleetRegistry.Proofs.Watch.Listing

/-!
Lists in pages, while the store goes on changing. A page ends before a place, and the next one
begins at that place, whatever stands there by then. As places are given out in ascending order and
never again, the pages show each place at most once and in order, and miss none that was wanted all
along.
-/
namespace FleetRegistry

variable {k : Kind}

namespace Store

variable {s : Store k} {ns : Option String} {selection : Selection} {start : Nat}

/-! ## One page -/

theorem mem_selected_from {entry : Nat × Object k} :
    entry ∈ s.selected ns selection start
      ↔ start ≤ entry.1 ∧ entry ∈ s.objects ∧ entry.2.wanted ns selection := by
  simp only [selected, Object.wanted, List.mem_filter, Bool.and_eq_true, decide_eq_true_eq]
  tauto

theorem Indexed.selected_ascending (h : s.Indexed) :
    ((s.selected ns selection start).map (·.1)).Pairwise (· < ·) :=
  h.ascending.sublist (List.filter_sublist.map _)

/-- A page shows the first of the selected entries. If there are more, its token leads to the next
of them. -/
theorem list_of_start (ns : Option String) (selection : Selection)
    (starts : s.startPlace selection.continueToken = .ok start) :
    ∃ shown rest, s.selected ns selection start = shown ++ rest
      ∧ s.list ns selection = .ok {
        items := shown.map (·.2)
        resourceVersion := some (Nat.repr s.revision)
        continueToken := rest.head?.map fun entry =>
          ContinueToken.encode ⟨s.revision, entry.1⟩ } := by
  unfold list
  rw [starts]
  cases selection.limit with
  | none => exact ⟨_, [], (List.append_nil _).symm, rfl⟩
  | some limit => exact ⟨_, _, (List.take_append_drop limit _).symm, rfl⟩

theorem selected_filter {place : Nat} (reached : start ≤ place) :
    (s.selected ns selection start).filter (place ≤ ·.1) = s.selected ns selection place := by
  rw [selected, selected, List.filter_filter]
  refine List.filter_congr fun entry _ => ?_
  by_cases here : place ≤ entry.1
  · simp [here, reached.trans here]
  · simp [here]

theorem Indexed.selected_rest (h : s.Indexed) {shown rest : List (Nat × Object k)}
    {entry : Nat × Object k} (found : s.selected ns selection start = shown ++ entry :: rest) :
    s.selected ns selection entry.1 = entry :: rest := by
  have mem : entry ∈ s.selected ns selection start :=
    found ▸ List.mem_append_right _ List.mem_cons_self
  have ascending : ((s.selected ns selection start).map (·.1)).Pairwise (· < ·) :=
    h.selected_ascending
  rw [found, List.pairwise_map] at ascending
  obtain ⟨-, behind, before⟩ := List.pairwise_append.1 ascending
  rw [← selected_filter (mem_selected_from.1 mem).1, found, List.filter_append]
  have none : shown.filter (entry.1 ≤ ·.1) = [] := List.filter_eq_nil_iff.2 fun other there => by
    simpa using before other there entry List.mem_cons_self
  have all : (entry :: rest).filter (entry.1 ≤ ·.1) = entry :: rest := by
    refine List.filter_eq_self.2 (List.forall_mem_cons.2 ⟨by simp, fun other there => ?_⟩)
    simpa using ((List.pairwise_cons.1 behind).1 other there).le
  rw [none, all, List.nil_append]

theorem list_of_refused {error : RegistryError}
    (refused : s.startPlace selection.continueToken = .error error) :
    s.list ns selection = .error error := by
  rw [list, refused]

theorem list_of_fits (starts : s.startPlace selection.continueToken = .ok start)
    {found : List (Nat × Object k)} (selected : s.selected ns selection start = found)
    (fits : ∀ limit, selection.limit = some limit → found.length ≤ limit) :
    ∃ page, s.list ns selection = .ok page ∧ page.items = found.map (·.2)
      ∧ page.continueToken = none := by
  subst selected
  rw [list, starts]
  refine ⟨_, rfl, ?_, ?_⟩
  all_goals
    cases limited : selection.limit with
    | none => rfl
    | some limit =>
      have short := fits limit limited
      simp [List.take_of_length_le short, List.drop_eq_nil_of_le short]

theorem list_of_more (starts : s.startPlace selection.continueToken = .ok start)
    {found : List (Nat × Object k)} (selected : s.selected ns selection start = found) {limit : Nat}
    (limited : selection.limit = some limit) (more : limit < found.length) :
    ∃ page shown entry rest, found = shown ++ entry :: rest ∧ shown.length = limit
      ∧ s.list ns selection = .ok page ∧ page.items = shown.map (·.2)
      ∧ page.continueToken = some (ContinueToken.encode ⟨s.revision, entry.1⟩) := by
  subst selected
  have split := (List.take_append_drop limit (s.selected ns selection start)).symm
  rw [List.drop_eq_getElem_cons more] at split
  rw [list, starts, limited]
  refine ⟨_, _, _, _, split, List.length_take_of_le more.le, rfl, rfl, ?_⟩
  simp only [List.drop_eq_getElem_cons more]
  rfl

theorem list_of_size (starts : s.startPlace selection.continueToken = .ok start)
    {found : List (Nat × Object k)} (selected : s.selected ns selection start = found)
    {pageSize : Nat} (sized : selection.limit = (some pageSize).filter (· > 0)) :
    ∃ page, s.list ns selection = .ok page
      ∧ ((0 < pageSize → found.length ≤ pageSize) ∧ page.items = found.map (·.2)
          ∧ page.continueToken = none
        ∨ ∃ shown entry rest, 0 < pageSize ∧ found = shown ++ entry :: rest
          ∧ shown.length = pageSize ∧ page.items = shown.map (·.2)
          ∧ page.continueToken = some (ContinueToken.encode ⟨s.revision, entry.1⟩)) := by
  by_cases more : 0 < pageSize ∧ pageSize < found.length
  · obtain ⟨positive, more⟩ := more
    have limited : selection.limit = some pageSize := by simp [sized, positive]
    obtain ⟨page, shown, entry, rest, split, full, given, items, leads⟩ :=
      list_of_more starts selected limited more
    exact ⟨page, given, .inr ⟨shown, entry, rest, positive, split, full, items, leads⟩⟩
  · have short (positive : 0 < pageSize) : found.length ≤ pageSize :=
      Nat.le_of_not_lt fun less => more ⟨positive, less⟩
    have fits (limit : Nat) (limited : selection.limit = some limit) : found.length ≤ limit := by
      obtain ⟨same, positive⟩ := Option.filter_eq_some_iff.1 (sized.symm.trans limited)
      cases same
      exact short (of_decide_eq_true positive)
    obtain ⟨page, given, items, last⟩ := list_of_fits starts selected fits
    exact ⟨page, given, .inl ⟨short, items, last⟩⟩

/-- A token that leads to a place. Without a token a list begins at the first place. -/
inductive LeadsTo : Option String → Nat → Prop
  | first : LeadsTo none 0
  | token {revision start : Nat} (small : revision < ContinueToken.numberLimit)
    (inside : start < ContinueToken.numberLimit) :
    LeadsTo (some (ContinueToken.encode ⟨revision, start⟩)) start

theorem LeadsTo.startPlace {token : Option String} (leads : LeadsTo token start) (s : Store k) :
    s.startPlace token = .ok start
      ∨ ∃ requested, s.startPlace token = .error (s.expired requested) := by
  cases leads with
  | first => exact .inl rfl
  | @token revision start small inside =>
    unfold Store.startPlace
    simp only [ContinueToken.decode_encode (t := ⟨revision, start⟩) small inside]
    split
    next => exact .inr ⟨_, rfl⟩
    next => exact .inl rfl

/-! ## Pages one after the other -/

structure ListCall (k : Kind) where
  store : Store k
  outcome : Outcome (Page k)

namespace ListCall

def next? (call : ListCall k) : Option String := call.outcome.toOption.bind (·.continueToken)

def Expired (call : ListCall k) : Prop :=
  ∃ requested oldest, call.outcome = .error (.expired requested oldest)

/-- A call is answered with a page of wanted objects, which stand at these places of the store. -/
structure Shows (ns : Option String) (selection : Selection) (call : ListCall k)
    (entries : List (Nat × Object k)) : Prop where
  page : ∃ page, call.outcome = .ok page ∧ page.items = entries.map (·.2)
  wanted : ∀ entry ∈ entries, entry ∈ call.store.objects ∧ entry.2.wanted ns selection

def Wants (ns : Option String) (selection : Selection) (place : Nat) (call : ListCall k) : Prop :=
  ∃ o, (place, o) ∈ call.store.objects ∧ o.wanted ns selection

end ListCall

/-- List calls, each with the token of the page before it, and some writes after each of them. They
go on for as long as there is a token and there are writes to be made. -/
def listCalls (ns : Option String) (selection : Selection) (token : Option String) (s : Store k) :
    List (List (Write k)) → List (ListCall k)
  | [] => [⟨s, s.list ns { selection with continueToken := token }⟩]
  | writes :: gaps =>
    let call : ListCall k := ⟨s, s.list ns { selection with continueToken := token }⟩
    call :: match call.next? with
      | some next => listCalls ns selection (some next) (s.after writes) gaps
      | none => []

/-- A store with a journal, which gives out places no faster than revisions. -/
structure Counted (s : Store k) : Prop where
  journal : ∃ log, s.Remembers log
  places : s.nextPlace ≤ s.revision

namespace Counted

theorem indexed (h : s.Counted) : s.Indexed := h.journal.elim fun _ remembers => remembers.indexed

theorem apply (h : s.Counted) (w : Write k) : (w.apply s).2.Counted := by
  obtain ⟨log, remembers⟩ := h.journal
  refine ⟨(remembers.after [w]).elim fun _ after => ⟨_, after⟩, ?_⟩
  have := h.places
  have := h.indexed.counters w
  omega

theorem after (h : s.Counted) (writes : List (Write k)) : (s.after writes).Counted := by
  induction writes generalizing s with
  | nil => exact h
  | cons w rest ih => exact ih (h.apply w)

end Counted

theorem counted_after (writes : List (Write k)) : ((empty k).after writes).Counted :=
  Counted.after ⟨⟨[], remembers_empty⟩, Nat.le_refl 0⟩ writes

theorem Counted.startPlace_own (h : s.Counted) (small : s.revision < ContinueToken.numberLimit)
    {entry : Nat × Object k} (stored : entry ∈ s.objects) :
    s.startPlace ((some (ContinueToken.encode ⟨s.revision, entry.1⟩)).filter (!·.isEmpty))
      = .ok entry.1 := by
  have inside : entry.1 < ContinueToken.numberLimit :=
    (h.indexed.below _ _ stored).trans_le (h.places.trans small.le)
  have nonempty := ContinueToken.encode_ne_empty (t := ⟨s.revision, entry.1⟩) small inside
  obtain ⟨log, remembers⟩ := h.journal
  have kept : ¬ s.revision < s.compacted := remembers.consistent.compacted_le.not_gt
  rw [Option.filter_some, if_pos (by simpa using nonempty), startPlace]
  simp [ContinueToken.decode_encode (t := ⟨s.revision, entry.1⟩) small inside, kept]

def places (shown : List (List (Nat × Object k))) : List Nat := shown.flatten.map (·.1)

/-- What pages show from a place on: nothing before it, places in ascending order, and if they come
to an end, all places from it on that are wanted at every call. -/
structure ShowsFrom (ns : Option String) (selection : Selection) (start : Nat)
    (calls : List (ListCall k)) (shown : List (List (Nat × Object k))) : Prop where
  pages : List.Forall₂ (ListCall.Shows ns selection) calls shown
  bounded : ∀ place ∈ places shown, start ≤ place
  ascending : (places shown).Pairwise (· < ·)
  complete : (∀ last ∈ calls.getLast?, last.next? = none) → ∀ place, start ≤ place →
    (∀ call ∈ calls, call.Wants ns selection place) → place ∈ places shown

theorem first_page {token : Option String} (h : s.Counted) (leads : LeadsTo token start)
    {call : ListCall k} (made : call = ⟨s, s.list ns { selection with continueToken := token }⟩)
    (small : s.revision < ContinueToken.numberLimit) (fresh : ¬call.Expired) :
    ∃ shown rest, s.selected ns selection start = shown ++ rest
      ∧ call.Shows ns selection shown
      ∧ (call.next? = none ∧ rest = []
        ∨ ∃ entry others next, rest = entry :: others ∧ call.next? = some next
          ∧ LeadsTo (some next) entry.1) := by
  subst made
  rcases leads.startPlace s with starts | ⟨requested, expired⟩
  · obtain ⟨shown, rest, found, page⟩ :=
      list_of_start ns { selection with continueToken := token } starts
    have found : s.selected ns selection start = shown ++ rest := found
    have inside : ∀ entry ∈ shown ++ rest, entry ∈ s.objects ∧ entry.2.wanted ns selection :=
      fun entry mem => (mem_selected_from.1 (found ▸ mem)).2
    refine ⟨shown, rest, found, ⟨⟨_, page, rfl⟩, fun entry mem => ?_⟩, ?_⟩
    · exact inside entry (List.mem_append_left _ mem)
    · simp only [ListCall.next?, page]
      cases rest with
      | nil => exact .inl ⟨rfl, rfl⟩
      | cons entry others =>
        have stored := (inside entry (by simp)).1
        have below := h.indexed.below entry.1 entry.2 stored
        refine .inr ⟨entry, others, _, rfl, rfl, .token small ?_⟩
        exact Nat.lt_trans (Nat.lt_of_lt_of_le below h.places) small
  · refine absurd ⟨requested, Nat.repr (s.compacted + 1), ?_⟩ fresh
    simp only [list, expired, Store.expired]

theorem places_cons (shown : List (Nat × Object k)) (more : List (List (Nat × Object k))) :
    places (shown :: more) = shown.map (·.1) ++ places more := by
  simp [places]

namespace ShowsFrom

variable {call : ListCall k} {shown rest : List (Nat × Object k)}

theorem mem_of_wants {place : Nat} (within : start ≤ place)
    (wants : call.Wants ns selection place) :
    place ∈ (call.store.selected ns selection start).map (·.1) := by
  obtain ⟨o, stored, wanted⟩ := wants
  exact List.mem_map.2 ⟨(place, o), mem_selected_from.2 ⟨within, stored, wanted⟩, rfl⟩

theorem bounded_of_found (found : call.store.selected ns selection start = shown ++ rest) :
    ∀ place ∈ (shown ++ rest).map (·.1), start ≤ place := by
  intro place mem
  obtain ⟨entry, here, rfl⟩ := List.mem_map.1 (found ▸ mem)
  exact (mem_selected_from.1 here).1

theorem single (h : call.store.Indexed)
    (found : call.store.selected ns selection start = shown ++ rest)
    (shows : call.Shows ns selection shown) (last : call.next? = none → rest = []) :
    ShowsFrom ns selection start [call] [shown] := by
  have only : places [shown] = shown.map (·.1) := by simp [places]
  have ascending : ((call.store.selected ns selection start).map (·.1)).Pairwise (· < ·) :=
    h.selected_ascending
  have bounded := bounded_of_found found
  rw [found, List.map_append] at ascending
  rw [List.map_append] at bounded
  refine ⟨.cons shows .nil, ?_, ?_, ?_⟩ <;> rw [only]
  · exact fun place mem => bounded place (List.mem_append_left _ mem)
  · exact (List.pairwise_append.1 ascending).1
  · intro ended place within wants
    obtain rfl := last (ended call rfl)
    have mem := mem_of_wants within (wants call List.mem_cons_self)
    rwa [found, List.append_nil] at mem

theorem cons (h : call.store.Indexed) {entry : Nat × Object k} {others : List (Nat × Object k)}
    (found : call.store.selected ns selection start = shown ++ entry :: others)
    (shows : call.Shows ns selection shown) {later : List (ListCall k)} (given : later ≠ [])
    {more : List (List (Nat × Object k))} (after : ShowsFrom ns selection entry.1 later more) :
    ShowsFrom ns selection start (call :: later) (shown :: more) := by
  have ascending : ((call.store.selected ns selection start).map (·.1)).Pairwise (· < ·) :=
    h.selected_ascending
  have bounded := bounded_of_found found
  rw [found, List.map_append] at ascending
  rw [List.map_append] at bounded
  obtain ⟨first, rest, before⟩ := List.pairwise_append.1 ascending
  have next : start ≤ entry.1 := bounded _ (by simp)
  refine ⟨.cons shows after.pages, ?_, ?_, ?_⟩ <;> rw [places_cons]
  · intro place mem
    rcases List.mem_append.1 mem with here | there
    · exact bounded place (List.mem_append_left _ here)
    · exact Nat.le_trans next (after.bounded place there)
  · refine List.pairwise_append.2 ⟨first, after.ascending, fun place here place' there => ?_⟩
    exact Nat.lt_of_lt_of_le (before place here _ (by simp)) (after.bounded place' there)
  · intro ended place within wants
    have ⟨here, there⟩ := List.forall_mem_cons.1 wants
    have mem := mem_of_wants within here
    rw [found, List.map_append] at mem
    rcases List.mem_append.1 mem with mem | mem
    · exact List.mem_append_left _ mem
    · have reached : entry.1 ≤ place := by
        rcases List.mem_cons.1 mem with rfl | mem
        · exact Nat.le_refl _
        · exact Nat.le_of_lt ((List.pairwise_cons.1 rest).1 place mem)
      refine List.mem_append_right _ (after.complete (fun last mem => ended last ?_) place reached
        there)
      rwa [List.getLast?_cons_of_ne_nil given]

end ShowsFrom

theorem listCalls_shown {token : Option String} (h : s.Counted) (leads : LeadsTo token start)
    (gaps : List (List (Write k)))
    (small : ∀ call ∈ listCalls ns selection token s gaps,
      call.store.revision < ContinueToken.numberLimit)
    (fresh : ∀ call ∈ listCalls ns selection token s gaps, ¬call.Expired) :
    ∃ shown, ShowsFrom ns selection start (listCalls ns selection token s gaps) shown := by
  induction gaps generalizing s token start with
  | nil =>
    obtain ⟨shown, rest, found, shows, next⟩ := first_page h leads rfl
      (small _ List.mem_cons_self) (fresh _ List.mem_cons_self)
    refine ⟨[shown], .single h.indexed found shows fun none => ?_⟩
    rcases next with ⟨-, rfl⟩ | ⟨_, _, _, -, some, -⟩
    · rfl
    · cases none.symm.trans some
  | cons writes gaps ih =>
    obtain ⟨shown, rest, found, shows, next⟩ := first_page h leads rfl
      (small _ List.mem_cons_self) (fresh _ List.mem_cons_self)
    rcases next with ⟨none, rfl⟩ | ⟨entry, others, token', rfl, some, leads'⟩
    · simp only [listCalls, none]
      exact ⟨[shown], .single h.indexed found shows fun _ => rfl⟩
    · simp only [listCalls, some] at small fresh ⊢
      obtain ⟨more, later⟩ := ih (h.after writes) leads'
        (fun call mem => small call (List.mem_cons_of_mem _ mem))
        (fun call mem => fresh call (List.mem_cons_of_mem _ mem))
      exact ⟨shown :: more, .cons h.indexed found shows (by cases gaps <;> nofun) later⟩

/-- Pages of a store as any writes leave it, with any writes between them, none of which is refused
for its age. Every call is answered with a page, the pages together show objects in the order of
their places and no place twice, and once they have come to an end, every place where something
wanted stands at each of the calls has been shown exactly once. -/
theorem list_in_pages (earlier : List (Write k)) (ns : Option String) (selection : Selection)
    (gaps : List (List (Write k))) :
    let calls := listCalls ns selection none ((empty k).after earlier) gaps
    (∀ call ∈ calls, call.store.revision < ContinueToken.numberLimit) →
    (∀ call ∈ calls, ¬call.Expired) →
    ∃ shown, List.Forall₂ (ListCall.Shows ns selection) calls shown
      ∧ (places shown).Pairwise (· < ·)
      ∧ ((∀ last ∈ calls.getLast?, last.next? = none) → ∀ place,
        (∀ call ∈ calls, call.Wants ns selection place) → (places shown).count place = 1) := by
  intro calls small fresh
  obtain ⟨shown, all⟩ := listCalls_shown (counted_after earlier) .first gaps small fresh
  refine ⟨shown, all.pages, all.ascending, fun ended place wants => ?_⟩
  have once : (places shown).Nodup := all.ascending.imp Nat.ne_of_lt
  exact List.count_eq_one_of_mem once (all.complete ended place (Nat.zero_le _) wants)

def changingCalls : List (ListCall .cluster) :=
  let create (name : String) : Write .cluster := .create .plain (.bareCluster name)
  let delete (name : String) : Write .cluster := .delete none name none
  listCalls none { Selection.everything with limit := some 1 } none
    ((empty .cluster).after [create "a", create "b", create "c"])
    [[delete "b", create "d"], [delete "a", create "a"], []]

def ListCall.summary (call : ListCall k) : Option (List String) × Nat × Bool × List Nat :=
  (call.outcome.toOption.map (·.items.map (·.anyName)), call.store.revision, call.next?.isSome,
    call.store.objects.map (·.1))

theorem changingCalls_summary : changingCalls.map (·.summary) = [
    (some ["a"], 3, true, [0, 1, 2]), (some ["c"], 5, true, [0, 2, 3]),
    (some ["d"], 7, true, [2, 3, 4]), (some ["a"], 7, false, [2, 3, 4])] := by
  decide +kernel

theorem list_in_pages_changing :
    ∃ shown, List.Forall₂ (ListCall.Shows none { Selection.everything with limit := some 1 })
        changingCalls shown
      ∧ (places shown).Pairwise (· < ·) ∧ (places shown).count 2 = 1 := by
  have all : ∀ call ∈ changingCalls, call.outcome.toOption.isSome = true
      ∧ call.store.revision < ContinueToken.numberLimit ∧ 2 ∈ call.store.objects.map (·.1) := by
    have facts : ∀ summary ∈ changingCalls.map (·.summary), summary.1.isSome = true
        ∧ summary.2.1 < ContinueToken.numberLimit ∧ 2 ∈ summary.2.2.2 := by
      rw [changingCalls_summary]
      decide +kernel
    intro call mem
    simpa [ListCall.summary] using facts _ (List.mem_map_of_mem mem)
  have ended : ∀ last ∈ changingCalls.getLast?, last.next? = none := by
    intro last mem
    have there := congrArg List.getLast? changingCalls_summary
    rw [List.getLast?_map, mem] at there
    simpa [ListCall.summary] using congrArg (Option.map (·.2.2.1)) there
  obtain ⟨shown, pages, ascending, once⟩ := list_in_pages _ none
    { Selection.everything with limit := some 1 } _ (fun call mem => (all call mem).2.1)
    fun call mem ⟨_, _, expired⟩ => by
      have ok := (all call mem).1
      rw [expired] at ok
      cases ok
  refine ⟨shown, pages, ascending, once ended 2 fun call mem => ?_⟩
  obtain ⟨⟨_, o⟩, stored, rfl⟩ := List.mem_map.1 (all call mem).2.2
  exact ⟨o, stored, rfl⟩

end Store

end FleetRegistry
