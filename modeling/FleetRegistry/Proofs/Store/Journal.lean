import FleetRegistry.Proofs.Store.Effects
import FleetRegistry.Text.Digits
import Mathlib.Data.List.Range

/-!
The journal of a store: every event since it was empty, also those that the history no longer
keeps. The journal determines what the store holds, its revision and its history; writes only ever
add to it.
-/
namespace FleetRegistry

theorem append_singleton_split {α : Type} {l earlier later : List α} {last x : α}
    (h : l ++ [last] = earlier ++ x :: later) :
    (earlier = l ∧ x = last ∧ later = []) ∨ ∃ rest, l = earlier ++ x :: rest := by
  rcases List.eq_nil_or_concat later with rfl | ⟨rest, y, rfl⟩
  · obtain ⟨rfl, same⟩ := List.append_inj' h rfl
    exact .inl ⟨rfl, (List.singleton_inj.1 same).symm, rfl⟩
  · rw [List.concat_eq_append, ← List.cons_append, ← List.append_assoc] at h
    exact .inr ⟨rest, (List.append_inj' h rfl).1⟩

namespace Event

variable {k : Kind}

def Legal (log : List (Event k)) : Prop :=
  ∀ earlier e later, log = earlier ++ e :: later →
    e.revision = earlier.length + 1
      ∧ e.object.metadata.resourceVersion = some (Nat.repr e.revision)
      ∧ e.Fits (replay earlier)

theorem legal_nil : Legal ([] : List (Event k)) := by
  intro earlier e later eq
  simp at eq

theorem Legal.append_singleton {log : List (Event k)} (h : Legal log) {e : Event k}
    (revision : e.revision = log.length + 1)
    (version : e.object.metadata.resourceVersion = some (Nat.repr e.revision))
    (fits : e.Fits (replay log)) : Legal (log ++ [e]) := by
  intro earlier x later eq
  rcases append_singleton_split eq with ⟨rfl, rfl, -⟩ | ⟨rest, inside⟩
  · exact ⟨revision, version, fits⟩
  · exact h earlier x rest inside

theorem Legal.of_append {log rest : List (Event k)} (h : Legal (log ++ rest)) : Legal log := by
  intro earlier e later eq
  exact h earlier e (later ++ rest) (by simp [eq])

theorem Legal.revisions {log : List (Event k)} (h : Legal log) :
    log.map (·.revision) = List.range' 1 log.length := by
  induction log using List.reverseRecOn with
  | nil => rfl
  | append_singleton log e ih =>
    rw [List.map_append, ih h.of_append, List.length_append, List.length_singleton,
      List.range'_concat]
    simp [(h log e [] rfl).1, Nat.add_comm]

theorem Legal.revisions_after {log rest : List (Event k)} (h : Legal (log ++ rest)) :
    rest.map (·.revision) = List.range' (log.length + 1) rest.length := by
  have := congrArg (List.drop log.length) h.revisions
  simpa [List.drop_range', Nat.add_comm] using this

theorem Legal.version_of_mem {log rest : List (Event k)} (h : Legal (log ++ rest)) {e : Event k}
    (mem : e ∈ rest) : e.object.metadata.resourceVersion = some (Nat.repr e.revision) := by
  obtain ⟨earlier, later, rfl⟩ := List.append_of_mem mem
  exact (h (log ++ earlier) e later (by simp)).2.1

theorem Legal.versions_after {log rest : List (Event k)} (h : Legal (log ++ rest)) :
    rest.map (·.object.metadata.resourceVersion)
      = (List.range' (log.length + 1) rest.length).map (some <| Nat.repr ·) := by
  rw [← h.revisions_after, List.map_map]
  exact List.map_congr_left fun e mem => h.version_of_mem mem

theorem Legal.lt_revision {log : List (Event k)} (h : Legal log) {n : Nat} {e : Event k}
    (mem : e ∈ log.drop n) : n < e.revision := by
  obtain ⟨a, b, eq⟩ := List.append_of_mem mem
  have split : log = log.take n ++ a ++ e :: b := by
    rw [List.append_assoc, ← eq, List.take_append_drop]
  have inside : n < log.length := by
    by_contra out
    rw [List.drop_eq_nil_of_le (Nat.le_of_not_lt out)] at mem
    exact List.not_mem_nil mem
  rw [(h _ e b split).1, List.length_append, List.length_take_of_le (Nat.le_of_lt inside)]
  omega

theorem Legal.revision_le {log : List (Event k)} (h : Legal log) {n : Nat} {e : Event k}
    (mem : e ∈ log.take n) : e.revision ≤ n := by
  obtain ⟨a, b, eq⟩ := List.append_of_mem mem
  have split : log = a ++ e :: (b ++ log.drop n) := by
    rw [← List.cons_append, ← List.append_assoc, ← eq, List.take_append_drop]
  have length := congrArg List.length eq
  rw [List.length_take, List.length_append, List.length_cons] at length
  rw [(h _ e _ split).1]
  omega

theorem Legal.lt_revision_after {log rest : List (Event k)} (h : Legal (log ++ rest)) {e : Event k}
    (mem : e ∈ rest) : log.length < e.revision :=
  h.lt_revision (n := log.length) (by rwa [List.drop_left])

theorem Legal.drop_revision {log a b : List (Event k)} (h : Legal log) {e : Event k}
    (eq : log = a ++ e :: b) : log.drop e.revision = b := by
  rw [(h a e b eq).1, eq, List.drop_length_add_append, List.drop_one, List.tail_cons]

theorem replay_eq_some {log : List (Event k)} {key : ObjectKey} {o : Object k}
    (h : replay log key = some o) :
    ∃ earlier e later, log = earlier ++ e :: later ∧ e.object = o ∧ e.object.key = key
      ∧ ∀ x ∈ later, x.object.key ≠ key := by
  induction log using List.reverseRecOn with
  | nil => simp at h
  | append_singleton log e ih =>
    rw [replay_append_singleton] at h
    rcases onView_eq_some h with ⟨same, here⟩ | ⟨other, before⟩
    · exact ⟨log, e, [], rfl, same, here, by simp⟩
    · obtain ⟨earlier, x, later, rfl, same, here, none⟩ := ih before
      refine ⟨earlier, x, later ++ [e], by simp, same, here, ?_⟩
      intro y mem
      rcases List.mem_append.1 mem with mem | mem
      · exact none y mem
      · rw [List.mem_singleton.1 mem]
        exact other

theorem replay_append_of_ne {log rest : List (Event k)} {key : ObjectKey}
    (other : ∀ e ∈ rest, e.object.key ≠ key) : replay (log ++ rest) key = replay log key := by
  induction rest using List.reverseRecOn with
  | nil => simp
  | append_singleton rest e ih =>
    rw [← List.append_assoc, replay_append_singleton,
      onView_of_ne (other e (by simp)).symm]
    exact ih fun x mem => other x (by simp [mem])

theorem replay_append_eq_some {log more : List (Event k)} {key : ObjectKey} {o : Object k}
    (h : replay (log ++ more) key = some o) :
    (∃ e ∈ more, e.object = o) ∨ replay log key = some o := by
  induction more using List.reverseRecOn with
  | nil => exact .inr (by simpa using h)
  | append_singleton more e ih =>
    rw [← List.append_assoc, replay_append_singleton] at h
    rcases onView_eq_some h with ⟨same, -⟩ | ⟨-, before⟩
    · exact .inl ⟨e, by simp, same⟩
    · rcases ih before with ⟨x, mem, same⟩ | earlier
      · exact .inl ⟨x, List.mem_append_left _ mem, same⟩
      · exact .inr earlier

theorem key_of_replay {log : List (Event k)} {key : ObjectKey} {o : Object k}
    (h : replay log key = some o) : o.key = key := by
  obtain ⟨_, e, _, _, rfl, here, _⟩ := replay_eq_some h
  exact here

theorem Legal.event_of_version {log a b c d : List (Event k)} {e e' : Event k} (h : Legal log)
    (eq : log = a ++ e :: b) (eq' : log = c ++ e' :: d)
    (same : e.object.metadata.resourceVersion = e'.object.metadata.resourceVersion) :
    a = c ∧ e = e' ∧ b = d := by
  have ⟨revision, version, _⟩ := h a e b eq
  have ⟨revision', version', _⟩ := h c e' d eq'
  rw [version, version', Option.some.injEq] at same
  have read := congrArg (fun text => Text.digits? text.toList) same
  simp only [Text.digits?_repr, revision, revision', Option.some.injEq,
    Nat.add_right_cancel_iff] at read
  obtain ⟨rfl, tail⟩ := List.append_inj (eq.symm.trans eq') read
  obtain ⟨rfl, rfl⟩ := List.cons.inj tail
  exact ⟨rfl, rfl, rfl⟩

theorem Legal.unchanged_between {log more : List (Event k)} (h : Legal (log ++ more))
    {key : ObjectKey} {o o' : Object k} (before : replay log key = some o)
    (after : replay (log ++ more) key = some o')
    (same : o.metadata.resourceVersion = o'.metadata.resourceVersion) :
    o = o' ∧ ∀ e ∈ more, e.object.key ≠ key := by
  obtain ⟨a, e, b, eq, rfl, -, -⟩ := replay_eq_some before
  obtain ⟨c, e', d, eq', rfl, -, quiet⟩ := replay_eq_some after
  have split : log ++ more = a ++ e :: (b ++ more) := by simp [eq]
  obtain ⟨rfl, rfl, rfl⟩ := h.event_of_version split eq' same
  exact ⟨rfl, fun x mem => quiet x (List.mem_append_right _ mem)⟩

end Event

namespace Store

variable {k : Kind} {s : Store k} {log : List (Event k)}

/-- The store is what its journal leads to. -/
structure Remembers (s : Store k) (log : List (Event k)) : Prop where
  indexed : s.Indexed
  legal : Event.Legal log
  revision : s.revision = log.length
  view : s.view = Event.replay log
  compacted : s.compacted = log.length - historyLimit
  history : s.history = log.drop s.compacted

theorem remembers_empty : (empty k).Remembers [] where
  indexed := ⟨.nil, .nil, by simp [empty], by simp [empty], by simp [empty]⟩
  legal := Event.legal_nil
  revision := rfl
  view := rfl
  compacted := by simp [empty]
  history := rfl

theorem record_history {e : Event k} (legal : Event.Legal log)
    (compacted : s.compacted = log.length - historyLimit)
    (history : s.history = log.drop s.compacted) :
    (record e s).compacted = (log ++ [e]).length - historyLimit
      ∧ (record e s).history = (log ++ [e]).drop (record e s).compacted := by
  have length : s.history.length = min log.length historyLimit := by
    rw [history, compacted, List.length_drop]
    omega
  by_cases full : log.length ≥ historyLimit
  · -- The oldest event makes room, and its revision is the next one that is compacted.
    have inside : s.compacted < log.length := by
      rw [compacted]
      exact Nat.sub_lt (Nat.lt_of_lt_of_le (by decide) full) (by decide)
    have split : s.history = log[s.compacted] :: log.drop (s.compacted + 1) := by
      rw [history, List.drop_eq_getElem_cons inside]
    have oldest : (log[s.compacted]).revision = s.compacted + 1 := by
      have := (legal (log.take s.compacted) log[s.compacted] (log.drop (s.compacted + 1))
        (by rw [← List.drop_eq_getElem_cons inside, List.take_append_drop])).1
      rwa [List.length_take_of_le (Nat.le_of_lt inside)] at this
    have recorded : record e s = { s with
        history := log.drop (s.compacted + 1) ++ [e], compacted := s.compacted + 1 } := by
      unfold record
      rw [split]
      simp only
      rw [← split, if_pos (by omega), oldest]
    rw [recorded, List.length_append, List.length_singleton]
    refine ⟨by simp only; omega, ?_⟩
    rw [List.drop_append_of_le_length inside]
  · -- Nothing was dropped so far, so the history is the whole journal.
    have zero : s.compacted = 0 := by omega
    have all : s.history = log := by rw [history, zero, List.drop_zero]
    have recorded : record e s = { s with history := log ++ [e] } := by
      unfold record
      split
      next oldest rest eq => rw [if_neg (by omega), all]
      next eq => rw [← all, eq]; rfl
    rw [recorded, List.length_append, List.length_singleton]
    exact ⟨by simp only; omega, by simp [zero]⟩

theorem Remembers.takes (h : s.Remembers log) {e : Event k} {s' : Store k} (t : s.Takes e s') :
    (record e s').Remembers (log ++ [e]) := by
  have kept := record_history (e := e) h.legal (t.compacted.trans h.compacted)
    (by rw [t.history, t.compacted, h.history])
  refine ⟨t.indexed.record e, ?_, ?_, ?_, kept.1, kept.2⟩
  · exact h.legal.append_singleton (by rw [t.revision, h.revision]) t.version (h.view ▸ t.fits)
  · simp [t.revisionAfter, h.revision]
  · rw [view_record, t.view, h.view, Event.replay_append_singleton]

theorem Remembers.history_length (h : s.Remembers log) :
    s.history.length = min log.length historyLimit := by
  rw [h.history, h.compacted, List.length_drop]
  omega

theorem Remembers.history_after (h : s.Remembers log) {n : Nat} (kept : s.compacted ≤ n) :
    s.history.filter (n < ·.revision) = log.drop n := by
  obtain ⟨d, rfl⟩ := Nat.exists_eq_add_of_le kept
  have legal := h.legal
  rw [h.history, ← List.take_append_drop d (log.drop s.compacted), List.filter_append,
    List.drop_drop, List.take_drop]
  have early : ((log.take (s.compacted + d)).drop s.compacted).filter
      (s.compacted + d < ·.revision) = [] := by
    refine List.filter_eq_nil_iff.2 fun e mem => ?_
    have := legal.revision_le (List.mem_of_mem_drop mem)
    simpa using this
  have late : (log.drop (s.compacted + d)).filter (s.compacted + d < ·.revision)
      = log.drop (s.compacted + d) := by
    refine List.filter_eq_self.2 fun e mem => ?_
    simpa using legal.lt_revision mem
  rw [early, late, List.nil_append]

/-- A write fails and changes nothing, or it adds one event to the journal and is answered with the
object of that event. -/
theorem Remembers.apply (h : s.Remembers log) (w : Write k) :
    (∃ error, w.apply s = (.error error, s)) ∨
      ∃ e, (w.apply s).1 = .ok e.object ∧ (w.apply s).2.Remembers (log ++ [e]) := by
  rcases w.apply_cases h.indexed with failed | ⟨e, s', eq, takes⟩
  · exact .inl failed
  · exact .inr ⟨e, by rw [eq], by rw [eq]; exact h.takes takes⟩

theorem Remembers.apply_event (h : s.Remembers log) (w : Write k) :
    (w.apply s).2.Remembers (log ++ (w.event? s).toList)
      ∧ (w.event? s = none → (w.apply s).2 = s) := by
  rcases h.apply w with ⟨error, eq⟩ | ⟨e, ok, after⟩
  · have quiet : w.event? s = none := by simp [Write.event?, eq]
    rw [quiet, eq]
    exact ⟨by simpa using h, fun _ => rfl⟩
  · have last : (w.apply s).2.history.getLast? = some e := by
      rw [after.history, after.compacted, List.getLast?_drop, if_neg]
      · exact List.getLast?_concat
      · rw [List.length_append, List.length_singleton]
        unfold historyLimit
        omega
    have told : w.event? s = some e := by
      rw [Write.event?, show w.apply s = (.ok e.object, (w.apply s).2) from Prod.ext ok rfl]
      exact last
    rw [told]
    exact ⟨after, nofun⟩

theorem Remembers.after_published (h : s.Remembers log) (writes : List (Write k)) :
    (s.after writes).Remembers (log ++ s.published writes) := by
  induction writes generalizing s log with
  | nil => simpa [published] using h
  | cons w rest ih =>
    rw [after_cons, published, ← List.append_assoc]
    exact ih (h.apply_event w).1

theorem Remembers.after_eq_self (h : s.Remembers log) {writes : List (Write k)}
    (quiet : s.published writes = []) : s.after writes = s := by
  induction writes with
  | nil => rfl
  | cons w rest ih =>
    have ⟨first, later⟩ := List.append_eq_nil_iff.1 quiet
    have same := (h.apply_event w).2 (Option.toList_eq_nil_iff.1 first)
    rw [same] at later
    rw [after_cons, same]
    exact ih later

theorem Remembers.after (h : s.Remembers log) (writes : List (Write k)) :
    ∃ more, (s.after writes).Remembers (log ++ more) := ⟨_, h.after_published writes⟩

theorem exists_journal (writes : List (Write k)) :
    ∃ log, ((empty k).after writes).Remembers log := by
  simpa using remembers_empty.after writes

end Store

end FleetRegistry
