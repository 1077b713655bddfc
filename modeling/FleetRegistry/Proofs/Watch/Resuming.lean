import FleetRegistry.Proofs.Watch.Polling

/-!
Watches from a version. A watch that goes on from a version delivers the events after it that the
history has, and then whatever is written later. Where the version is one that the store has not
reached, what is written later may come before it.
-/
namespace FleetRegistry

variable {k : Kind}

namespace Event

variable {ns : Option String} {selection : Selection} {log rest : List (Event k)}

theorem Legal.versions_of_first (h : Legal (log ++ rest)) {told : List (WatchEvent k)}
    (first : told <+: rest.filterMap (·.seen? ns selection)) :
    told.map WatchEvent.version?
      = (((concerning ns selection rest).take told.length).map (·.revision)).map
        (some <| Nat.repr ·) := by
  obtain ⟨_, eq⟩ := first
  have versions : (rest.filterMap (·.seen? ns selection)).map WatchEvent.version? = _ :=
    h.versions_seen
  have prefixed := congrArg (List.take told.length) versions
  rw [← eq, List.map_append, List.take_append_of_le_length (by simp),
    List.take_of_length_le (by simp)] at prefixed
  rw [prefixed, ← List.map_take, List.map_map]
  rfl

variable {since : Nat} {later : List (Event k)}

theorem Legal.min_lt_revision (h : Legal (log ++ later)) {e : Event k}
    (mem : e ∈ log.drop since ++ later) : min since log.length < e.revision := by
  rcases List.mem_append.1 mem with replayed | live
  · exact Nat.lt_of_le_of_lt (Nat.min_le_left _ _) (h.of_append.lt_revision replayed)
  · exact Nat.lt_of_le_of_lt (Nat.min_le_right _ _) (h.lt_revision_after live)

theorem Legal.all_after_iff (h : Legal (log ++ later)) (n : Nat) :
    (∀ e ∈ (concerning ns selection (log.drop since ++ later)).take n, since < e.revision) ↔
      n = 0 ∨ ∀ e ∈ later, e.revision ≤ since → e.seen? ns selection = none := by
  have sorted : (concerning ns selection (log.drop since ++ later)).Pairwise _ :=
    h.concerning_sorted ((List.drop_sublist since log).append_right later)
  constructor
  · intro all
    refine or_iff_not_imp_left.2 fun some e mem early => ?_
    by_contra seen
    have told : e ∈ concerning ns selection (log.drop since ++ later) :=
      mem_concerning.2 ⟨List.mem_append_right _ mem, Option.isSome_iff_ne_none.2 seen⟩
    obtain ⟨m, rfl⟩ := Nat.exists_eq_succ_of_ne_zero some
    -- The first event that is told is no later than this one.
    cases concerned : concerning ns selection (log.drop since ++ later) with
    | nil => simp [concerned] at told
    | cons first others =>
      rw [concerned] at all sorted told
      have after := all first (by simp)
      rcases List.mem_cons.1 told with rfl | other
      · omega
      · have := List.rel_of_pairwise_cons sorted other
        omega
  · rintro (rfl | quiet) e mem
    · simp at mem
    · obtain ⟨inside, seen⟩ := mem_concerning.1 (List.mem_of_mem_take mem)
      rcases List.mem_append.1 inside with replayed | live
      · exact h.of_append.lt_revision replayed
      · by_contra early
        simp [quiet e live (Nat.le_of_not_lt early)] at seen

end Event

namespace Watch

/-- A watch that goes on from a version, read in any way while anything is written: its events come
in the order of their revisions, each of them after the version or, if the store had not reached
that, after the opening. All of them come after the version unless something that concerns the
watcher is written before the store reaches it. -/
theorem resumed_revisions (earlier : List (Store.Write k)) (ns : Option String)
    (selection : Selection) {text : String} {since : Nat} (deadline : Option Nat) {w : Watch k}
    (parsed : Text.unsigned? ContinueToken.numberLimit text.toList = some since)
    (notZero : text ≠ "0")
    (opened : ((Store.empty k).after earlier).watch ns selection (some text) = .ok w)
    (moments : List (Moment k)) :
    let opening := (Store.empty k).after earlier
    let l := Listener.run ⟨opening, { w with deadline }, []⟩ moments
    let later := opening.published (moments.filterMap Moment.write?)
    ∃ revisions : List Nat, l.told.map WatchEvent.version? = revisions.map (some <| Nat.repr ·)
      ∧ (min since opening.revision :: revisions).Pairwise (· < ·)
      ∧ ((∀ n ∈ revisions, since < n) ↔
        l.told = [] ∨ ∀ e ∈ later, e.revision ≤ since → e.seen? ns selection = none) := by
  intro opening l later
  obtain ⟨log, before⟩ := Store.exists_journal earlier
  obtain ⟨found, start⟩ := Listener.stands_of_opened before opened deadline
  obtain ⟨told, stands⟩ := start.run moments
  rw [List.nil_append] at stands
  have legal : Event.Legal (log ++ later) := stands.attends.remembers.legal
  have notEmpty : text ≠ "" := by
    rintro rfl
    simp [Text.unsigned?, Text.digits?] at parsed
  obtain ⟨_, parsed', replayed⟩ := before.initialEvents_of_text notEmpty notZero found
  obtain rfl := Option.some.inj (parsed.symm.trans parsed')
  have complete := stands.attends.complete
  rw [replayed, ← List.filterMap_append] at complete
  have split : log.take since ++ (log.drop since ++ later) = log ++ later := by
    rw [← List.append_assoc, List.take_append_drop]
  rw [stands.account.told_eq, before.revision]
  refine ⟨_, (split ▸ legal).versions_of_first ⟨_, complete⟩, ?_, ?_⟩
  · refine List.pairwise_cons.2 ⟨?_, ?_⟩
    · intro n mem
      obtain ⟨e, inside, rfl⟩ := List.mem_map.1 mem
      exact legal.min_lt_revision (Event.mem_concerning.1 (List.mem_of_mem_take inside)).1
    · exact List.pairwise_map.2 ((legal.concerning_sorted
        ((List.drop_sublist since log).append_right later)).sublist (List.take_sublist _ _))
  · rw [List.forall_mem_map, legal.all_after_iff, List.length_eq_zero_iff]

theorem resumed_revisions_from_one :
    let change := Store.Write.update (.bareCluster "a")
    let opening := (Store.empty .cluster).after [.create .plain (.bareCluster "a"), change]
    ∃ w, opening.watch none .everything (some "1") = .ok w
      ∧ let l := Listener.run ⟨opening, w, []⟩ [.read 0, .write change, .receive 0]
        l.told.map WatchEvent.version? = [some "2", some "3"]
        ∧ ∃ revisions : List Nat,
          l.told.map WatchEvent.version? = revisions.map (some <| Nat.repr ·)
          ∧ ∀ n ∈ revisions, 1 < n := by
  intro change opening
  refine ⟨_, rfl, by decide +kernel, ?_⟩
  obtain ⟨revisions, versions, sorted, -⟩ := resumed_revisions
    [.create .plain (.bareCluster "a"), change] none .everything none
    (by decide : Text.unsigned? ContinueToken.numberLimit "1".toList = some 1) (by decide) rfl
    [.read 0, .write change, .receive 0]
  have reached : min 1 opening.revision = 1 := by decide +kernel
  rw [reached] at sorted
  exact ⟨revisions, versions, fun n mem => List.rel_of_pairwise_cons sorted mem⟩

/-- A watch of a store without objects, from a version that it has not reached, delivers the first
event although that comes before the version. -/
theorem watch_before_version :
    Text.unsigned? ContinueToken.numberLimit "5".toList = some 5
      ∧ ∃ w, (Store.empty .cluster).watch none .everything (some "5") = .ok w
        ∧ let l := Listener.run ⟨.empty .cluster, w, []⟩
            [.write (.create .plain (.bareCluster "a")), .read 0]
          l.told.map WatchEvent.version? = [some (Nat.repr 1)] ∧ ¬ 5 < 1 := by
  refine ⟨by decide, _, rfl, by decide +kernel, by decide⟩

end Watch

end FleetRegistry
