import FleetRegistry.Proofs.Store.Journal

/-!
Consistency of a store. After any writes, index and objects are in step, versions are distinct
numbers up to the revision, and the history is an unbroken run of revisions that ends at the
present. A key and a version together name one object: whoever reads the same version twice has
missed no write.
-/
namespace FleetRegistry.Store

variable {k : Kind} {s : Store k}

/-- What holds of the parts of a store at all times. -/
structure Consistent (s : Store k) : Prop extends s.Indexed where
  versioned : ∀ place o, (place, o) ∈ s.objects →
    ∃ n, 1 ≤ n ∧ n ≤ s.revision ∧ o.metadata.resourceVersion = some (Nat.repr n)
  versionsOnce : (s.objects.map (·.2.metadata.resourceVersion)).Nodup
  historyShort : s.history.length ≤ 1000
  compacted_le : s.compacted ≤ s.revision
  historyUnbroken : s.history.map (·.revision)
    = List.range' (s.compacted + 1) (s.revision - s.compacted)

namespace Remembers

variable {log : List (Event k)}

theorem event_of_mem (h : s.Remembers log) {place : Nat} {o : Object k}
    (mem : (place, o) ∈ s.objects) :
    ∃ earlier e later, log = earlier ++ e :: later ∧ e.object = o := by
  have there : s.view o.key = some o := h.indexed.view_of_mem mem
  rw [h.view] at there
  obtain ⟨earlier, e, later, eq, same, -, -⟩ := Event.replay_eq_some there
  exact ⟨earlier, e, later, eq, same⟩

theorem entry_of_version (h : s.Remembers log) {a b : Nat × Object k} (ha : a ∈ s.objects)
    (hb : b ∈ s.objects)
    (same : a.2.metadata.resourceVersion = b.2.metadata.resourceVersion) : a = b := by
  obtain ⟨_, e, _, eq, ho⟩ := h.event_of_mem ha
  obtain ⟨_, e', _, eq', ho'⟩ := h.event_of_mem hb
  rw [← ho, ← ho'] at same
  obtain ⟨-, rfl, -⟩ := h.legal.event_of_version eq eq' same
  have objects : a.2 = b.2 := ho.symm.trans ho'
  have place := h.indexed.place_unique (h.indexed.indexed a.1 a.2 ha)
    (objects ▸ h.indexed.indexed b.1 b.2 hb)
  exact Prod.ext place objects

theorem consistent (h : s.Remembers log) : s.Consistent where
  toIndexed := h.indexed
  versioned := by
    intro place o mem
    obtain ⟨earlier, e, later, eq, rfl⟩ := h.event_of_mem mem
    have ⟨revision, version, _⟩ := h.legal earlier e later eq
    refine ⟨e.revision, by omega, ?_, version⟩
    rw [h.revision, eq, revision, List.length_append, List.length_cons]
    omega
  versionsOnce := by
    have once : s.objects.Nodup := h.indexed.placesOnce.of_map _
    exact once.map_on fun a ha b hb same => h.entry_of_version ha hb same
  historyShort := by
    rw [h.history, h.compacted, List.length_drop]
    unfold historyLimit
    omega
  compacted_le := by
    rw [h.compacted, h.revision]
    omega
  historyUnbroken := by
    rw [h.history, List.map_drop, h.legal.revisions, List.drop_range', h.revision]
    congr 1
    omega

end Remembers

theorem untouched (earlier between rest : List (Write k)) (w : Write k) {key : ObjectKey}
    {o o' : Object k} (before : ((empty k).after earlier).view key = some o)
    (after : ((empty k).after (earlier ++ (between ++ w :: rest))).view key = some o')
    (same : o.metadata.resourceVersion = o'.metadata.resourceVersion) :
    ((empty k).after (earlier ++ between)).view key = some o ∧
      ∀ written, (w.apply ((empty k).after (earlier ++ between))).1 = .ok written →
        written.key ≠ key := by
  obtain ⟨log, start⟩ := exists_journal earlier
  obtain ⟨first, middle⟩ := start.after between
  rw [start.view] at before
  rw [← List.append_assoc, after_append, after_cons] at after
  rw [← after_append] at middle
  -- Whatever the write adds to the journal, nothing after the first moment is about the key.
  have kept : ∀ more, Event.Legal (log ++ first ++ more) →
      Event.replay (log ++ first ++ more) key = some o' →
      ∀ e ∈ first ++ more, e.object.key ≠ key := by
    intro more legal there
    rw [List.append_assoc] at legal there
    exact (legal.unchanged_between before there same).2
  suffices quiet : (∀ e ∈ first, e.object.key ≠ key) ∧
      ∀ written, (w.apply ((empty k).after (earlier ++ between))).1 = .ok written →
        written.key ≠ key by
    refine ⟨?_, quiet.2⟩
    rw [middle.view, Event.replay_append_of_ne quiet.1, before]
  rcases middle.apply w with ⟨error, eq⟩ | ⟨e, eq, written⟩
  · obtain ⟨more, last⟩ := middle.after rest
    rw [eq, last.view] at after
    have quiet := kept more last.legal after
    refine ⟨fun e mem => quiet e (List.mem_append_left _ mem), fun written ok => ?_⟩
    rw [eq] at ok
    cases ok
  · obtain ⟨more, last⟩ := written.after rest
    rw [last.view, List.append_assoc (log ++ first)] at after
    have legal := last.legal
    rw [List.append_assoc (log ++ first)] at legal
    have quiet := kept ([e] ++ more) legal after
    refine ⟨fun x mem => quiet x (List.mem_append_left _ mem), fun written ok => ?_⟩
    rw [eq] at ok
    cases ok
    exact quiet e (by simp)

/-- After any writes the store is consistent. If further writes leave the version of a key as it
is, they have not touched the object: it is the same at the end and before each of them, and none of
them wrote it. -/
theorem consistent_after (earlier later : List (Write k)) :
    ((empty k).after earlier).Consistent ∧
      ∀ key o o', ((empty k).after earlier).view key = some o →
        ((empty k).after (earlier ++ later)).view key = some o' →
        o.metadata.resourceVersion = o'.metadata.resourceVersion →
        o = o' ∧ ∀ between w rest, later = between ++ w :: rest →
          ((empty k).after (earlier ++ between)).view key = some o ∧
            ∀ written, (w.apply ((empty k).after (earlier ++ between))).1 = .ok written →
              written.key ≠ key := by
  obtain ⟨log, journal⟩ := exists_journal earlier
  refine ⟨journal.consistent, fun key o o' before after same => ⟨?_, ?_⟩⟩
  · obtain ⟨more, last⟩ := journal.after later
    rw [journal.view] at before
    rw [after_append, last.view] at after
    exact (last.legal.unchanged_between before after same).1
  · rintro between w rest rfl
    exact untouched earlier between rest w before after same

/-- A cluster stays as it is while another one is updated and deleted. -/
theorem consistent_after_two_creations :
    let earlier : List (Write .cluster) :=
      [.create .plain (.bareCluster "a"), .create .plain (.bareCluster "b")]
    ((empty .cluster).after earlier).Consistent ∧
      ((empty .cluster).after (earlier ++ [.update (.bareCluster "b")])).view ⟨"", "a"⟩
        = some (entered .plain 1 (.bareCluster "a")) := by
  intro earlier
  have ⟨consistent, kept⟩ :=
    consistent_after earlier [.update (.bareCluster "b"), .delete none "b" none]
  have ⟨_, untouched⟩ := kept ⟨"", "a"⟩ (entered .plain 1 (.bareCluster "a")) _ rfl rfl rfl
  exact ⟨consistent, (untouched [.update (.bareCluster "b")] _ [] rfl).1⟩

end FleetRegistry.Store
