import FleetRegistry.Proofs.Store.Journal
import FleetRegistry.Store.Watch

/-!
Reading a watch. At each moment a watch has a rest: what it is still going to deliver if nothing
more happens. Writes add to the end of the rest and readings take from its front, unless the watch
has fallen behind; nothing else changes it.
-/
namespace FleetRegistry

variable {k : Kind}

namespace Store

variable {ns : Option String} {selection : Selection}

theorem firstSeen?_eq_none {events : List (Event k)} (h : firstSeen? ns selection events = none) :
    events.filterMap (·.seen? ns selection) = [] := by
  induction events with
  | nil => rfl
  | cons e rest ih =>
    unfold firstSeen? at h
    split at h
    next => simp at h
    next unseen => simp [unseen, ih h]

theorem firstSeen?_eq_some {events : List (Event k)} {revision : Nat} {seen : WatchEvent k}
    (h : firstSeen? ns selection events = some (revision, seen)) :
    ∃ skipped e rest, events = skipped ++ e :: rest ∧ e.revision = revision ∧
      events.filterMap (·.seen? ns selection)
        = seen :: rest.filterMap (·.seen? ns selection) := by
  induction events with
  | nil => simp [firstSeen?] at h
  | cons e rest ih =>
    unfold firstSeen? at h
    split at h
    next told eq =>
      cases h
      exact ⟨[], e, rest, rfl, rfl, by simp [eq]⟩
    next unseen =>
      obtain ⟨skipped, x, rest', rfl, same, eq⟩ := ih h
      exact ⟨e :: skipped, x, rest', rfl, same, by simp [unseen, eq]⟩

end Store

namespace Watch

variable {s : Store k} {log : List (Event k)} {w : Watch k} {clock : Nat}

def rest (log : List (Event k)) (w : Watch k) : List (WatchEvent k) :=
  w.pending ++ (log.drop w.seen).filterMap (·.seen? w.ns w.selection)

def weight (log : List (Event k)) (w : Watch k) : Nat :=
  w.pending.length + min (log.length - w.seen) (Store.lagLimit + 1)

/-- A watch as a later state of another. -/
structure Continues (log : List (Event k)) (w w' : Watch k) : Prop where
  ns : w'.ns = w.ns
  selection : w'.selection = w.selection
  deadline : w'.deadline = w.deadline
  ended : w'.ended = w.ended
  advances : w.seen ≤ w'.seen
  seen : w'.seen ≤ log.length

/-- What comes before later events: the end of the watch, and what it found at its opening. -/
def ahead (clock : Nat) (live : Reading k × Watch k) (w : Watch k) : Reading k × Watch k :=
  if w.ended then (.ended, w)
  else if w.isOver clock then (.ended, { w with ended := true })
  else match w.pending with
    | event :: rest => (.item (.ok event), { w with pending := rest })
    | [] => live

/-- What a reading at some time can be, with the watch after it: the end, the next part of the rest,
word of how much was lost, or nothing so far. -/
inductive Gives (log : List (Event k)) (clock : Nat) (w : Watch k) : Reading k → Watch k → Prop
  | ended (finished : w.ended = true ∨ w.isOver clock = true) :
    Gives log clock w .ended { w with ended := true }
  | item {e : WatchEvent k} {w' : Watch k} (later : w.Continues log w')
    (rest : w.rest log = e :: w'.rest log) (less : w'.weight log < w.weight log) :
    Gives log clock w (.item (.ok e)) w'
  | lost {n : Nat} (drained : w.pending = []) (positive : 0 < n)
    (behind : log.length = w.seen + Store.lagLimit + n) :
    Gives log clock w (.item (.error (Store.lagged n))) { w with ended := true }
  | waiting {w' : Watch k} (later : w.Continues log w') (rest : w'.rest log = w.rest log) :
    Gives log clock w .waiting w'

theorem rest_append (bound : w.seen ≤ log.length) (more : List (Event k)) :
    w.rest (log ++ more) = w.rest log ++ more.filterMap (·.seen? w.ns w.selection) := by
  rw [rest, List.drop_append_of_le_length bound, List.filterMap_append, ← List.append_assoc]
  rfl

theorem rest_of_nil (nothing : w.rest log = []) :
    ({ w with seen := log.length } : Watch k).rest log = [] := by
  have pending := (List.append_eq_nil_iff.1 nothing).1
  simp [rest, pending]

theorem read_of_ended (ended : w.ended = true) : w.read clock s = (.ended, w) := if_pos ended

theorem reach_of_kept (h : s.Remembers log) (kept : log.length - w.seen ≤ Store.lagLimit) :
    s.compacted ≤ w.seen := by
  rw [h.compacted]
  unfold Store.historyLimit
  unfold Store.lagLimit at kept
  omega

theorem readLive_of_kept (h : s.Remembers log) (kept : log.length - w.seen ≤ Store.lagLimit) :
    w.readLive s = match Store.firstSeen? w.ns w.selection (log.drop w.seen) with
      | some (revision, e) => (.item (.ok e), { w with seen := revision })
      | none => (.waiting, { w with seen := log.length }) := by
  unfold readLive
  rw [h.revision, h.history_after (reach_of_kept h kept)]
  exact if_neg (Nat.not_lt.2 kept)

theorem drop_of_firstSeen? (legal : Event.Legal log) (bound : w.seen ≤ log.length) {revision : Nat}
    {e : WatchEvent k}
    (h : Store.firstSeen? w.ns w.selection (log.drop w.seen) = some (revision, e)) :
    w.seen < revision ∧ revision ≤ log.length ∧
      (log.drop w.seen).filterMap (·.seen? w.ns w.selection)
        = e :: (log.drop revision).filterMap (·.seen? w.ns w.selection) := by
  obtain ⟨skipped, x, later, eq, rfl, told⟩ := Store.firstSeen?_eq_some h
  have split : log = (log.take w.seen ++ skipped) ++ x :: later := by
    rw [List.append_assoc, ← eq, List.take_append_drop]
  have place := (legal _ x later split).1
  rw [List.length_append, List.length_take_of_le bound] at place
  have length := congrArg List.length split
  rw [List.length_append, List.length_append, List.length_take_of_le bound,
    List.length_cons] at length
  refine ⟨by omega, by omega, ?_⟩
  rw [told, legal.drop_revision split]

theorem readLive_of_lost (h : s.Remembers log) (lost : log.length - w.seen > Store.lagLimit) :
    w.readLive s = (.item (.error (Store.lagged (log.length - w.seen - Store.lagLimit))),
      { w with ended := true }) := by
  rw [readLive, h.revision]
  exact if_pos lost

theorem gives_lost (drained : w.pending = []) (lost : log.length - w.seen > Store.lagLimit) :
    w.Gives log clock (.item (.error (Store.lagged (log.length - w.seen - Store.lagLimit))))
      { w with ended := true } := .lost drained (by omega) (by omega)

theorem readLive_gives (clock : Nat) (h : s.Remembers log) (bound : w.seen ≤ log.length)
    (drained : w.pending = []) : w.Gives log clock (w.readLive s).1 (w.readLive s).2 := by
  by_cases lost : log.length - w.seen > Store.lagLimit
  · rw [readLive_of_lost h lost]
    exact gives_lost drained lost
  · rw [readLive_of_kept h (Nat.le_of_not_lt lost)]
    split
    next revision e found =>
      have ⟨later, inside, told⟩ := drop_of_firstSeen? h.legal bound found
      refine .item ⟨rfl, rfl, rfl, rfl, Nat.le_of_lt later, inside⟩
        (by simp [rest, drained, told]) ?_
      simp only [weight, drained, List.length_nil]
      omega
    next none =>
      have nothing : w.rest log = [] := by
        rw [rest, drained, Store.firstSeen?_eq_none none, List.append_nil]
      exact .waiting ⟨rfl, rfl, rfl, rfl, bound, Nat.le_refl _⟩
        ((rest_of_nil nothing).trans nothing.symm)

theorem read_eq_ahead (clock : Nat) (s : Store k) (w : Watch k) :
    w.read clock s = w.ahead clock (w.readLive s) := rfl

theorem ahead_of_drained (running : w.ended = false) (going : w.isOver clock = false)
    (drained : w.pending = []) (live : Reading k × Watch k) : w.ahead clock live = live := by
  simp [ahead, running, going, drained]

theorem ahead_cases (clock : Nat) (bound : w.seen ≤ log.length) :
    (w.ended = false ∧ w.isOver clock = false ∧ w.pending = []) ∨
      ∃ reading w', reading ≠ .waiting ∧ w.Gives log clock reading w'
        ∧ ∀ live, w.ahead clock live = (reading, w') := by
  unfold ahead
  cases ended : w.ended with
  | true =>
    have same : w = { w with ended := true } := by simp [← ended]
    refine .inr ⟨.ended, w, nofun, ?_, fun _ => rfl⟩
    rw [same]
    exact .ended (.inl rfl)
  | false =>
    cases finished : w.isOver clock with
    | true =>
      exact .inr ⟨.ended, { w with ended := true }, nofun, .ended (.inr finished), fun _ => rfl⟩
    | false =>
      cases pending : w.pending with
      | nil => exact .inl ⟨rfl, rfl, rfl⟩
      | cons e rest =>
        refine .inr ⟨.item (.ok e), { w with pending := rest }, nofun, ?_, by simp [ended]⟩
        refine .item ⟨rfl, rfl, rfl, rfl, Nat.le_refl _, bound⟩ (by simp [Watch.rest, pending]) ?_
        simp [weight, pending]

theorem ahead_gives (bound : w.seen ≤ log.length) {live : Reading k × Watch k}
    (given : w.pending = [] → w.Gives log clock live.1 live.2) :
    w.Gives log clock (w.ahead clock live).1 (w.ahead clock live).2 := by
  rcases ahead_cases clock bound with ⟨running, going, drained⟩ | ⟨_, _, -, gives, eq⟩
  · rw [ahead_of_drained running going drained]
    exact given drained
  · rw [eq]
    exact gives

theorem read_gives (clock : Nat) (h : s.Remembers log) (bound : w.seen ≤ log.length) :
    w.Gives log clock (w.read clock s).1 (w.read clock s).2 :=
  ahead_gives bound (readLive_gives clock h bound)

theorem rest_of_waiting (h : s.Remembers log) (bound : w.seen ≤ log.length)
    (waiting : (w.read clock s).1 = .waiting) : w.rest log = [] := by
  rw [read_eq_ahead] at waiting
  rcases ahead_cases clock bound with ⟨running, going, drained⟩ | ⟨_, _, different, -, eq⟩
  · rw [ahead_of_drained running going drained] at waiting
    by_cases lost : log.length - w.seen > Store.lagLimit
    · rw [readLive_of_lost h lost] at waiting
      cases waiting
    · rw [readLive_of_kept h (Nat.le_of_not_lt lost)] at waiting
      split at waiting
      next => cases waiting
      next none => rw [rest, drained, Store.firstSeen?_eq_none none, List.append_nil]
  · rw [eq] at waiting
    exact absurd waiting different

/-- A watch that is read until it waits has delivered its whole rest. -/
theorem readUpTo_items (h : s.Remembers log) {n : Nat} (bound : w.seen ≤ log.length)
    (enough : w.weight log < n) (running : (w.readUpTo clock s n).1.ended = false) :
    (w.readUpTo clock s n).1.items = (w.rest log).map .ok := by
  induction n generalizing w with
  | zero => simp at enough
  | succ n ih =>
    have given := read_gives clock h bound
    have waits : (w.read clock s).1 = .waiting → w.rest log = [] := rest_of_waiting h bound
    unfold readUpTo at running ⊢
    generalize w.read clock s = result at given waits running ⊢
    obtain ⟨reading, w'⟩ := result
    cases given with
    | ended => simp at running
    | item later rest less =>
      simp only at running ⊢
      rw [ih later.seen (by omega) running, rest, List.map_cons]
    | lost drained positive behind =>
      -- The watch ends with the error, and another reading says so.
      have more : n ≠ 0 := by
        unfold weight at enough
        omega
      obtain ⟨m, rfl⟩ := Nat.exists_eq_succ_of_ne_zero more
      simp [readUpTo, read_of_ended] at running
    | waiting => simp [waits rfl]

theorem weight_lt_bound (h : s.Remembers log) (w : Watch k) : w.weight log < w.bound s := by
  unfold weight bound Store.lagLimit
  rw [h.history_length]
  unfold Store.historyLimit
  omega

theorem readAll_items (h : s.Remembers log) (bound : w.seen ≤ log.length)
    (running : (w.readAll clock none s).1.ended = false) :
    (w.readAll clock none s).1.items = (w.rest log).map .ok :=
  readUpTo_items h bound (weight_lt_bound h w) running

end Watch

end FleetRegistry
