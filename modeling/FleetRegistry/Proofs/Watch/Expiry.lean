import FleetRegistry.Proofs.Store.Paging
import FleetRegistry.Proofs.Watch.Following

/-!
How long a version lives. A watch from a version, and the next page of a list that began at it, are
refused exactly if more has been written since than the history holds. A watch that is not refused
delivers everything that has been written since and that concerns it.
-/
namespace FleetRegistry

variable {k : Kind} {ns : Option String} {selection : Selection}

namespace Event

theorem Legal.filter_after {log : List (Event k)} (h : Legal log) (since : Nat) :
    log.filter (since < ·.revision) = log.drop since := by
  have early : (log.take since).filter (since < ·.revision) = [] := by
    refine List.filter_eq_nil_iff.2 fun e mem => ?_
    simpa using h.revision_le mem
  have late : (log.drop since).filter (since < ·.revision) = log.drop since := by
    refine List.filter_eq_self.2 fun e mem => ?_
    simpa using h.lt_revision mem
  conv_lhs => rw [← List.take_append_drop since log, List.filter_append, early, late]
  exact List.nil_append _

end Event

/-! ## Reading what was found -/

theorem Watch.readUpTo_of_opened {s : Store k}
    (quiet : s.history.filter (s.revision < ·.revision) = []) (clock : Nat) {n : Nat}
    {pending : List (WatchEvent k)} (enough : pending.length < n) :
    (readUpTo clock s n { pending, seen := s.revision, ns, selection }).1
      = ⟨pending.map .ok, false⟩ := by
  induction n generalizing pending with
  | zero => cases enough
  | succ n ih =>
    unfold readUpTo
    cases pending with
    | nil => simp [read, isOver, readLive, quiet, Store.firstSeen?]
    | cons e rest =>
      rw [List.length_cons] at enough
      simp [read, isOver, ih (Nat.lt_of_succ_lt_succ enough)]

namespace Store

variable {s : Store k} {log : List (Event k)} {since : Nat}

/-! ## Versions that are too old -/

theorem Remembers.missed_length (h : s.Remembers log) (since : Nat) :
    (log.filter (since < ·.revision)).length = s.revision - since := by
  rw [h.legal.filter_after, List.length_drop, h.revision]

theorem Remembers.lt_compacted_iff (h : s.Remembers log) :
    since < s.compacted ↔ historyLimit < (log.filter (since < ·.revision)).length := by
  rw [h.missed_length, h.compacted, h.revision]
  omega

theorem Remembers.expired_eq (h : s.Remembers log) (requested : String) :
    s.expired requested = .expired requested (Nat.repr (s.revision - historyLimit + 1)) := by
  unfold expired
  rw [h.compacted, h.revision]

theorem Remembers.watch_of_text (h : s.Remembers log) (ns : Option String)
    (selection : Selection) {text : String}
    (parsed : Text.unsigned? ContinueToken.numberLimit text.toList = some since)
    (notZero : text ≠ "0") :
    s.watch ns selection (some text)
      = if historyLimit < (log.filter (since < ·.revision)).length then
          .error (.expired text (Nat.repr (s.revision - historyLimit + 1)))
        else .ok {
          pending := (log.filter (since < ·.revision)).filterMap (·.seen? ns selection)
          seen := s.revision, ns, selection } := by
  have notEmpty : text ≠ "" := by
    rintro rfl
    simp [Text.unsigned?, Text.digits?] at parsed
  rw [watch, h.initialEvents_eq notEmpty notZero, parsed]
  simp only [h.lt_compacted_iff, h.expired_eq, h.legal.filter_after]
  by_cases old : historyLimit < (log.drop since).length
  · simp only [if_pos old]
  · simp only [if_neg old]

/-! ## Tokens -/

/-- A token that a list gave out, somewhere in a run, when the store had a certain revision. -/
def IssuedAt (writes : List (Write k)) (since : Nat) (token : String) : Prop :=
  ∃ earlier later ns selection page, writes = earlier ++ later
    ∧ ((empty k).after earlier).revision = since
    ∧ ((empty k).after earlier).list ns selection = .ok page ∧ page.continueToken = some token

theorem IssuedAt.encoded {writes : List (Write k)} {token : String}
    (issued : IssuedAt writes since token) :
    ∃ start, token = ContinueToken.encode ⟨since, start⟩ ∧ start < since := by
  obtain ⟨earlier, later, ns, selection, page, -, rfl, listed, given⟩ := issued
  have counted := counted_after (k := k) earlier
  generalize (empty k).after earlier = s at *
  cases starts : s.startPlace selection.continueToken with
  | error error => simp [list, starts] at listed
  | ok start =>
    obtain ⟨shown, rest, found, page'⟩ := list_of_start ns selection starts
    obtain rfl := Except.ok.inj (page'.symm.trans listed)
    obtain ⟨entry, first, rfl⟩ := Option.map_eq_some_iff.1 given
    have selected : entry ∈ s.selected ns selection start :=
      found ▸ List.mem_append_right _ (List.mem_of_mem_head? first)
    have below := counted.indexed.below _ _ (mem_selected_from.1 selected).2.1
    exact ⟨entry.1, rfl, Nat.lt_of_lt_of_le below counted.places⟩

theorem Remembers.list_of_token (h : s.Remembers log) {start : Nat}
    (small : since < ContinueToken.numberLimit) (inside : start < ContinueToken.numberLimit)
    (given : selection.continueToken = some (ContinueToken.encode ⟨since, start⟩)) :
    (historyLimit < (log.filter (since < ·.revision)).length →
      s.list ns selection
        = .error (.expired (Nat.repr since) (Nat.repr (s.revision - historyLimit + 1))))
    ∧ ((log.filter (since < ·.revision)).length ≤ historyLimit →
      ∃ page, s.list ns selection = .ok page) := by
  have starts : s.startPlace selection.continueToken
      = if since < s.compacted then .error (s.expired (Nat.repr since)) else .ok start := by
    rw [given, startPlace, ContinueToken.decode_encode (t := ⟨since, start⟩) small inside]
  constructor
  · intro old
    rw [if_pos (h.lt_compacted_iff.2 old)] at starts
    rw [list, starts, h.expired_eq]
  · intro recent
    rw [if_neg (mt h.lt_compacted_iff.1 (Nat.not_lt.2 recent))] at starts
    obtain ⟨shown, rest, -, page⟩ := list_of_start ns selection starts
    exact ⟨_, page⟩

/-! ## Expiry -/

/-- Whatever was written, a watch from a version is refused exactly if more than a thousand writes
came after it; else it delivers what concerns it of all of them. A token that was given out at that
version is refused exactly then too. -/
theorem expiry (writes : List (Write k)) (since : Nat) :
    let s := (empty k).after writes
    let missed := ((empty k).published writes).filter (since < ·.revision)
    let oldest := Nat.repr (s.revision - 1000 + 1)
    (∀ ns selection text, Text.unsigned? ContinueToken.numberLimit text.toList = some since →
      0 < since →
      (1000 < missed.length → s.watch ns selection (some text) = .error (.expired text oldest))
      ∧ (missed.length ≤ 1000 → ∃ w, s.watch ns selection (some text) = .ok w
        ∧ w.pending = missed.filterMap (·.seen? ns selection)
        ∧ ∀ clock, (w.readAll clock none s).1 = ⟨w.pending.map .ok, false⟩))
    ∧ (since < ContinueToken.numberLimit → ∀ token, IssuedAt writes since token →
      ∀ ns selection, selection.continueToken = some token →
      (1000 < missed.length →
        s.list ns selection = .error (.expired (Nat.repr since) oldest))
      ∧ (missed.length ≤ 1000 → ∃ page, s.list ns selection = .ok page)) := by
  intro s missed oldest
  have h : s.Remembers ((empty k).published writes) := by
    simpa using remembers_empty.after_published writes
  constructor
  · intro ns selection text parsed positive
    have notZero : text ≠ "0" := by
      rintro rfl
      have zero : some 0 = some since := parsed
      exact absurd (Option.some.inj zero) (Nat.ne_of_lt positive)
    have opened := h.watch_of_text ns selection parsed notZero
    constructor
    · intro old
      exact opened.trans (if_pos old)
    · intro recent
      refine ⟨_, opened.trans (if_neg (Nat.not_lt.2 recent)), rfl, fun clock => ?_⟩
      have quiet : s.history.filter (s.revision < ·.revision) = [] := by
        rw [h.history_after (by rw [h.compacted, h.revision]; omega), h.revision,
          List.drop_length]
      refine Watch.readUpTo_of_opened quiet clock ?_
      rw [Option.map_none, Option.getD_none, Watch.bound]
      exact Nat.lt_of_le_of_lt (Nat.le_add_right _ s.history.length)
        (Nat.lt_add_of_pos_right Nat.two_pos)
  · intro small token issued ns selection given
    obtain ⟨start, rfl, before⟩ := issued.encoded
    exact h.list_of_token small (Nat.lt_trans before small) given

theorem Indexed.revision_of_updates (h : s.Indexed) {o previous : Object k}
    (stored : s.view o.key = some previous) (unversioned : o.metadata.versionText.isEmpty = true)
    (n : Nat) : (s.after (List.replicate n (.update o))).revision = s.revision + n := by
  induction n generalizing s previous with
  | zero => rfl
  | succ n ih =>
    obtain ⟨place, there, eq⟩ := update_of_current h stored (.inl unversioned)
    have same : (o.withVersion (s.revision + 1)).key = previous.key :=
      (h.view_eq_some_iff.1 stored).2.symm
    have next : (s.update o).2.view o.key = some (o.withVersion (s.revision + 1)) := by
      rw [eq, view_record, h.view_replaced there same]
      exact Function.update_self _ _ _
    have revision : ((Write.update o).apply s).2.revision = s.revision + 1 := by
      rcases h.apply_outcome (.update o) with ⟨error, failed⟩ | ⟨_, _, revision⟩
      · cases (congrArg Prod.fst failed).symm.trans (congrArg Prod.fst eq)
      · exact revision
    rw [List.replicate_succ, after_cons]
    refine (ih (h.apply (.update o)) next).trans ?_
    rw [revision, Nat.add_assoc, Nat.add_comm 1]

def creations : List (Write .cluster) :=
  [.create .plain (.bareCluster "a"), .create .plain (.bareCluster "b")]

def rewritten (n : Nat) : List (Write .cluster) :=
  creations ++ List.replicate n (.update (.bareCluster "a"))

theorem revision_rewritten (n : Nat) :
    ((empty .cluster).after (rewritten n)).revision = n + 2 := by
  have created : (((empty .cluster).after creations).view
      (Object.bareCluster "a").key).isSome = true := by decide +kernel
  obtain ⟨o, stored⟩ := Option.isSome_iff_exists.1 created
  have indexed : ((empty .cluster).after creations).Indexed :=
    (remembers_empty.after_published creations).indexed
  have revision : ((empty .cluster).after creations).revision = 2 := by decide +kernel
  rw [rewritten, after_append, indexed.revision_of_updates stored rfl n, revision, Nat.add_comm]

theorem issued_rewritten (n : Nat) :
    IssuedAt (rewritten n) 2 (ContinueToken.encode ⟨2, 1⟩) := by
  have given : (((empty .cluster).after creations).list none
      { Selection.everything with limit := some 1 }).toOption.map (·.continueToken)
      = some (some (ContinueToken.encode ⟨2, 1⟩)) := by decide +kernel
  obtain ⟨page, listed, token⟩ := Option.map_eq_some_iff.1 given
  have revision : ((empty .cluster).after creations).revision = 2 := by decide +kernel
  exact ⟨creations, _, none, _, page, rfl, revision, Outcome.toOption_eq_some.1 listed, token⟩

/-- After a thousand writes a version and a token are still good, and after one more they are
not. -/
theorem expiry_after_creations :
    let token := ContinueToken.encode ⟨2, 1⟩
    let next := { Selection.everything with continueToken := some token }
    let s (n : Nat) := (empty .cluster).after (rewritten n)
    (∃ w, (s 1000).watch none .everything (some "2") = .ok w)
      ∧ (s 1001).watch none .everything (some "2") = .error (.expired "2" "4")
      ∧ IssuedAt (rewritten 1000) 2 token ∧ (∃ page, (s 1000).list none next = .ok page)
      ∧ IssuedAt (rewritten 1001) 2 token
      ∧ (s 1001).list none next = .error (.expired "2" "4") := by
  intro token next s
  have missed (n : Nat) : (((empty .cluster).published (rewritten n)).filter
      (2 < ·.revision)).length = n := by
    have h := (remembers_empty (k := .cluster)).after_published (rewritten n)
    have length := h.missed_length 2
    rw [revision_rewritten] at length
    simpa using length
  have recent : (((empty .cluster).published (rewritten 1000)).filter
      (2 < ·.revision)).length ≤ 1000 := (missed 1000).le
  have old : 1000 < (((empty .cluster).published (rewritten 1001)).filter
      (2 < ·.revision)).length := (missed 1001).ge
  have oldest : Nat.repr (((empty .cluster).after (rewritten 1001)).revision - 1000 + 1) = "4" := by
    rw [revision_rewritten]
    rfl
  have watched (n : Nat) := (expiry (rewritten n) 2).1 none .everything "2" rfl Nat.two_pos
  have listed (n : Nat) :=
    (expiry (rewritten n) 2).2 (by decide) token (issued_rewritten n) none next rfl
  refine ⟨?_, ?_, issued_rewritten 1000, (listed 1000).2 recent, issued_rewritten 1001, ?_⟩
  · obtain ⟨w, opened, -⟩ := (watched 1000).2 recent
    exact ⟨w, opened⟩
  · rw [(watched 1001).1 old, oldest]
  · rw [(listed 1001).1 old, oldest]
    rfl

end Store

end FleetRegistry
