import FleetRegistry.Proofs.Interleaving.Guards
import FleetRegistry.Proofs.Registry.Effects

/-!
What becomes of a write that is based on what its call read last. Objects that were read stood in
the store at some point of its journal; the write succeeds if and only if they still do, and
otherwise changes nothing.
-/
namespace FleetRegistry

variable {k : Kind}

def Event.Held (log : List (Event k)) (o : Object k) : Prop :=
  ∃ earlier, earlier <+: log ∧ replay earlier o.key = some o

namespace Event

variable {log more : List (Event k)} {o : Object k}

theorem Held.append (h : Held log o) (more : List (Event k)) : Held (log ++ more) o := by
  obtain ⟨earlier, inside, there⟩ := h
  exact ⟨earlier, inside.trans (List.prefix_append log more), there⟩

theorem held_of_replay {key : ObjectKey} (there : replay log key = some o) : Held log o :=
  ⟨log, List.prefix_rfl, key_of_replay there ▸ there⟩

theorem Held.unchanged (h : Held log o) (legal : Legal (log ++ more)) {o' : Object k}
    (now : replay (log ++ more) o.key = some o')
    (same : o'.metadata.resourceVersion = o.metadata.resourceVersion) :
    o' = o ∧ ∀ between, between <+: more → replay (log ++ between) o.key = some o := by
  obtain ⟨earlier, ⟨rest, rfl⟩, there⟩ := h
  rw [List.append_assoc] at legal now
  have ⟨eq, quiet⟩ := legal.unchanged_between there now same.symm
  refine ⟨eq.symm, fun between inside => ?_⟩
  rw [List.append_assoc, replay_append_of_ne, there]
  intro e mem
  refine quiet e ?_
  rcases List.mem_append.1 mem with mem | mem
  · exact List.mem_append_left _ mem
  · exact List.mem_append_right _ (inside.subset mem)

theorem Held.versioned (h : Held log o) (legal : Legal log) :
    ∃ n, o.metadata.resourceVersion = some (Nat.repr n) := by
  obtain ⟨earlier, ⟨rest, rfl⟩, there⟩ := h
  obtain ⟨a, e, b, eq, rfl, -, -⟩ := replay_eq_some there
  exact ⟨e.revision, (legal.of_append a e b eq).2.1⟩

theorem Held.eq_of_version (h : Held log o) {o' : Object k} (h' : Held log o') (legal : Legal log)
    (same : o.metadata.resourceVersion = o'.metadata.resourceVersion) : o = o' := by
  obtain ⟨_, ⟨rest, rfl⟩, there⟩ := h
  obtain ⟨_, ⟨rest', eq⟩, there'⟩ := h'
  obtain ⟨a, e, b, rfl, rfl, -, -⟩ := replay_eq_some there
  obtain ⟨c, e', d, rfl, rfl, -, -⟩ := replay_eq_some there'
  simp only [List.append_assoc, List.cons_append] at legal eq
  rw [(legal.event_of_version rfl eq.symm same).2.1]

end Event

theorem ObjectMeta.version_of_text {m : ObjectMeta} {n : Nat} (h : m.versionText = Nat.repr n) :
    m.resourceVersion = some (Nat.repr n) := by
  unfold versionText at h
  cases version : m.resourceVersion with
  | none =>
    rw [version] at h
    exact absurd h.symm Nat.repr_ne_empty
  | some text =>
    rw [version] at h
    exact congrArg some h

namespace Store

def Named (s : Store k) : Prop := ∀ key o, s.view key = some o → o.IsNamed

variable {s : Store k} {log : List (Event k)} {w : Write k} {last : Option (Object k)}

theorem Named.written (named : s.Named) (h : s.Indexed) (based : w.BasedOn last)
    {o : Object k} (ok : (w.apply s).1 = .ok o) : o.IsNamed := by
  cases w with
  | create ambient x =>
    rcases create_cases ambient x s with ⟨_, eq⟩ | ⟨-, eq⟩
    · simp [Write.apply, eq] at ok
    · simp only [Write.apply, eq] at ok
      cases ok
      exact based.1
  | update x =>
    cases there : s.view x.key with
    | none => simp [Write.apply, update_of_none there] at ok
    | some previous =>
      by_cases current : x.metadata.versionText.isEmpty = true
          ∨ x.metadata.resourceVersion = previous.metadata.resourceVersion
      · obtain ⟨_, _, eq⟩ := update_of_current h there current
        simp only [Write.apply, eq] at ok
        cases ok
        exact based.1
      · rw [not_or, Bool.not_eq_true] at current
        simp [Write.apply, update_of_stale there current.1 current.2] at ok
  | delete ns name p =>
    cases there : s.view (.ofAddress k ns name) with
    | none => simp [Write.apply, delete_of_none there] at ok
    | some x =>
      cases met : checkPreconditions p x with
      | error error => simp [Write.apply, delete_of_refused there met] at ok
      | ok _ =>
        obtain ⟨_, _, _, eq⟩ := delete_of_met h there met
        simp only [Write.apply, eq] at ok
        cases ok
        exact named _ x there

theorem Named.apply (named : s.Named) (h : s.Remembers log) (based : w.BasedOn last) :
    (w.apply s).2.Named := by
  rcases h.apply w with ⟨error, eq⟩ | ⟨e, eq, after⟩
  · rw [eq]
    exact named
  · intro key o there
    rw [after.view, Event.replay_append_singleton, ← h.view] at there
    rcases Event.onView_eq_some there with ⟨rfl, -⟩ | ⟨-, before⟩
    · exact named.written h.indexed based eq
    · exact named key o before

theorem checkPreconditions_version {old o : Object k} {n : Nat}
    (version : old.metadata.resourceVersion = some (Nat.repr n)) :
    (o.metadata.versionText = Nat.repr n ∧
        checkPreconditions (some { resourceVersion := old.metadata.resourceVersion }) o = .ok ())
      ∨ (o.metadata.versionText ≠ Nat.repr n ∧ ∃ error, error.isConflict = true ∧
        checkPreconditions (some { resourceVersion := old.metadata.resourceVersion }) o
          = .error error) := by
  by_cases same : Nat.repr n = o.metadata.versionText
  · refine .inl ⟨same.symm, ?_⟩
    simp [checkPreconditions, Preconditions.conflict?, Preconditions.conflict?.versionConflict?,
      version, same]
  · refine .inr ⟨Ne.symm same, ?_⟩
    simp only [checkPreconditions, Preconditions.conflict?,
      Preconditions.conflict?.versionConflict?, version, Option.bind_some, if_neg same]
    exact ⟨_, rfl, rfl⟩

theorem Remembers.write_based (h : s.Remembers log) {key : ObjectKey} {old : Object k}
    (based : w.BasedOn (some old)) (replaces : w.replaces? = some key)
    (held : Event.Held log old) :
    old.key = key ∧
      ((s.view key = some old ∧ ∃ stored, (w.apply s).1 = .ok stored)
        ∨ (s.view key ≠ some old ∧ ∃ error, w.apply s = (.error error, s)
          ∧ if (s.view key).isNone then error.isNotFound else error.isConflict)) := by
  obtain ⟨n, version⟩ := held.versioned h.legal
  have current {cur : Object k} (there : s.view old.key = some cur)
      (same : cur.metadata.resourceVersion = old.metadata.resourceVersion) : cur = old := by
    rw [h.view, ← List.append_nil log] at there
    exact (held.unchanged (by simpa using h.legal) there same).1
  cases w with
  | create ambient o => simp [Write.replaces?] at replaces
  | update o =>
    obtain ⟨_, _, same, sameKey, sameVersion⟩ := based
    cases same
    cases replaces
    refine ⟨sameKey.symm, ?_⟩
    cases there : s.view o.key with
    | none => exact .inr ⟨by simp, _, update_of_none there, rfl⟩
    | some cur =>
      by_cases kept : cur.metadata.resourceVersion = old.metadata.resourceVersion
      · obtain ⟨_, _, eq⟩ := update_of_current h.indexed there (.inr (sameVersion.trans kept.symm))
        exact .inl ⟨by rw [current (sameKey ▸ there) kept], _, congrArg Prod.fst eq⟩
      · -- The version is never empty, so this is no unconditional update for the store.
        have written : o.metadata.versionText.isEmpty = false := by
          simp [ObjectMeta.versionText, sameVersion, version]
        refine .inr ⟨?_, _, update_of_stale there written ?_, rfl⟩
        · rintro same
          cases same
          exact kept rfl
        · rw [sameVersion]
          exact Ne.symm kept
  | delete ns name p =>
    obtain ⟨_, same, sameKey, rfl⟩ := based
    cases same
    cases replaces
    refine ⟨sameKey.symm, ?_⟩
    cases there : s.view (.ofAddress k ns name) with
    | none => exact .inr ⟨by simp, _, delete_of_none there, rfl⟩
    | some cur =>
      rcases checkPreconditions_version (o := cur) version with
        ⟨text, met⟩ | ⟨text, error, conflict, refused⟩
      · obtain ⟨_, _, _, eq⟩ := delete_of_met h.indexed there met
        have kept := (ObjectMeta.version_of_text text).trans version.symm
        exact .inl ⟨by rw [current (sameKey ▸ there) kept], _, congrArg Prod.fst eq⟩
      · refine .inr ⟨?_, error, delete_of_refused there refused, conflict⟩
        rintro same
        cases same
        simp [ObjectMeta.versionText, version] at text

end Store

theorem Steps.Guarded.run {α : Type} {p : Steps k α} {last : Option (Object k)}
    (h : p.Guarded last) {s : Store k} {log : List (Event k)} (remembers : s.Remembers log)
    (named : s.Named) :
    ∃ more, (p.run s).2.Remembers (log ++ more) ∧ (p.run s).2.Named := by
  induction p generalizing last s log with
  | done outcome => exact ⟨[], by simpa using remembers, named⟩
  | read ns name next ih =>
    refine ih _ (h (s.get ns name) fun o found => ?_) remembers named
    rw [Store.get_eq_ok] at found
    exact ⟨Event.key_of_replay (remembers.view ▸ found), named _ _ found⟩
  | look next ih => exact ih s (h s) remembers named
  | write w next ih =>
    have named' := named.apply remembers h.1
    rcases remembers.apply w with ⟨error, eq⟩ | ⟨e, eq, remembers'⟩
    · rw [Steps.run_write, eq]
      exact ih _ (h.2 _) remembers named
    · obtain ⟨more, last⟩ := ih _ (h.2 (.ok e.object)) remembers' named'
      rw [Steps.run_write, eq]
      exact ⟨e :: more, by simpa using last⟩

theorem Registry.after_named (policy : WritePolicy) (requests : List (Request k)) :
    ∃ log, (after policy (.empty k) requests).Remembers log
      ∧ (after policy (.empty k) requests).Named := by
  have steps : ∀ (s : Store k) (log : List (Event k)), s.Remembers log → s.Named →
      ∃ log', (after policy s requests).Remembers log' ∧ (after policy s requests).Named := by
    induction requests with
    | nil => exact fun s log remembers named => ⟨log, remembers, named⟩
    | cons r rest ih =>
      intro s log remembers named
      obtain ⟨more, next⟩ := (callSteps_guarded policy r.ambient r.ns r.call).run remembers named
      rw [run_callSteps] at next
      exact ih _ _ next.1 next.2
  exact steps _ [] Store.remembers_empty fun key o there => by cases there

end FleetRegistry
