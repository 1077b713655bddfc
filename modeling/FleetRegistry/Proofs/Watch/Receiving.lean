import FleetRegistry.Proofs.Watch.Reading

/-!
Receiving one event at a time. A reading passes over the events that do not concern the watch until
it comes to one that does; writes can come between any two of these steps. Taken without a break,
the steps are the reading.
-/
namespace FleetRegistry

namespace Watch

variable {k : Kind}

/-- Looks at the next event that happened after the opening, and passes over it if it does not
concern the watch. -/
def receiveLive (s : Store k) (w : Watch k) : Reading k × Watch k :=
  let behind := s.revision - w.seen
  if behind > Store.lagLimit then
    (.item (.error (Store.lagged (behind - Store.lagLimit))), { w with ended := true })
  else match s.history.filter (w.seen < ·.revision) with
    | [] => (.waiting, w)
    | event :: _ =>
      (match event.seen? w.ns w.selection with
        | some told => .item (.ok told)
        | none => .waiting,
      { w with seen := event.revision })

def receive (clock : Nat) (s : Store k) (w : Watch k) : Reading k × Watch k :=
  w.ahead clock (w.receiveLive s)

def receiveUpTo (clock : Nat) (s : Store k) : Nat → Watch k → Reading k × Watch k
  | 0, w => (.waiting, w)
  | n + 1, w =>
    match w.receive clock s with
    | (.waiting, w) => receiveUpTo clock s n w
    | result => result

variable {s : Store k} {log : List (Event k)} {w : Watch k} {clock : Nat}

theorem receiveLive_of_kept (h : s.Remembers log) (kept : log.length - w.seen ≤ Store.lagLimit) :
    w.receiveLive s = match log.drop w.seen with
      | [] => (.waiting, w)
      | event :: _ =>
        (match event.seen? w.ns w.selection with
          | some told => .item (.ok told)
          | none => .waiting,
        { w with seen := event.revision }) := by
  unfold receiveLive
  rw [h.revision, h.history_after (reach_of_kept h kept)]
  exact if_neg (Nat.not_lt.2 kept)

theorem receiveLive_of_lost (h : s.Remembers log) (lost : log.length - w.seen > Store.lagLimit) :
    w.receiveLive s = (.item (.error (Store.lagged (log.length - w.seen - Store.lagLimit))),
      { w with ended := true }) := by
  rw [receiveLive, h.revision]
  exact if_pos lost

theorem drop_of_next (legal : Event.Legal log) {event : Event k} {later : List (Event k)}
    (next : log.drop w.seen = event :: later) :
    event.revision = w.seen + 1 ∧ w.seen < log.length ∧ log.drop event.revision = later := by
  have split : log = log.take w.seen ++ event :: later := by
    rw [← next, List.take_append_drop]
  have inside : w.seen < log.length := by
    by_contra out
    simp [List.drop_eq_nil_of_le (Nat.le_of_not_lt out)] at next
  have revision := (legal _ _ _ split).1
  rw [List.length_take_of_le (Nat.le_of_lt inside)] at revision
  exact ⟨revision, inside, legal.drop_revision split⟩

theorem receiveLive_gives (clock : Nat) (h : s.Remembers log) (bound : w.seen ≤ log.length)
    (drained : w.pending = []) : w.Gives log clock (w.receiveLive s).1 (w.receiveLive s).2 := by
  by_cases lost : log.length - w.seen > Store.lagLimit
  · rw [receiveLive_of_lost h lost]
    exact gives_lost drained lost
  · rw [receiveLive_of_kept h (Nat.le_of_not_lt lost)]
    split
    next => exact .waiting ⟨rfl, rfl, rfl, rfl, Nat.le_refl _, bound⟩ rfl
    next event later next =>
      have ⟨revision, inside, after⟩ := drop_of_next h.legal next
      have continues : w.Continues log { w with seen := event.revision } :=
        ⟨rfl, rfl, rfl, rfl, by simp only; omega, by simp only; omega⟩
      cases told : event.seen? w.ns w.selection with
      | some e =>
        refine .item continues (by simp [rest, drained, next, after, told]) ?_
        simp only [weight, drained, List.length_nil]
        omega
      | none => exact .waiting continues (by simp [rest, drained, next, after, told])

theorem receive_gives (clock : Nat) (h : s.Remembers log) (bound : w.seen ≤ log.length) :
    w.Gives log clock (w.receive clock s).1 (w.receive clock s).2 :=
  ahead_gives bound (receiveLive_gives clock h bound)

theorem receiveUpTo_of_nothing (nothing : w.receive clock s = (.waiting, w)) (n : Nat) :
    w.receiveUpTo clock s n = (.waiting, w) := by
  induction n with
  | zero => rfl
  | succ n ih => simpa [receiveUpTo, nothing] using ih

theorem readLive_of_passed (h : s.Remembers log) (kept : log.length - w.seen ≤ Store.lagLimit)
    {event : Event k} {later : List (Event k)} (next : log.drop w.seen = event :: later)
    (unseen : event.seen? w.ns w.selection = none) :
    w.readLive s = ({ w with seen := event.revision } : Watch k).readLive s := by
  have ⟨revision, inside, after⟩ := drop_of_next h.legal next
  rw [readLive_of_kept h kept, readLive_of_kept h (by simp only; omega)]
  simp [Store.firstSeen?, unseen, next, after]

theorem read_eq_receiveUpTo (h : s.Remembers log) (bound : w.seen ≤ log.length) {n : Nat}
    (enough : log.length - w.seen < n) : w.read clock s = w.receiveUpTo clock s n := by
  induction n generalizing w with
  | zero => simp at enough
  | succ n ih =>
    rcases ahead_cases clock bound with ⟨running, going, drained⟩ | ⟨reading, w', told, -, eq⟩
    · have live (x : Nat) : ({ w with seen := x } : Watch k).read clock s
          = ({ w with seen := x } : Watch k).readLive s :=
        ahead_of_drained (w := { w with seen := x }) running going drained _
      have received : w.receive clock s = w.receiveLive s :=
        ahead_of_drained running going drained _
      rw [receiveUpTo, show w.read clock s = w.readLive s from live w.seen, received]
      by_cases lost : log.length - w.seen > Store.lagLimit
      · rw [readLive_of_lost h lost, receiveLive_of_lost h lost]
      have kept := Nat.le_of_not_lt lost
      rw [receiveLive_of_kept h kept] at received ⊢
      cases next : log.drop w.seen with
      | nil =>
        have all : w.seen = log.length := Nat.le_antisymm bound (List.drop_eq_nil_iff.1 next)
        simp only [next] at received
        rw [readLive_of_kept h kept, next]
        simp [receiveUpTo_of_nothing received, Store.firstSeen?, ← all]
      | cons event later =>
        obtain ⟨revision, inside, -⟩ := drop_of_next h.legal next
        cases told : event.seen? w.ns w.selection with
        | some e => simp [readLive_of_kept h kept, next, Store.firstSeen?, told]
        | none =>
          rw [readLive_of_passed h kept next told, ← live]
          simp only [told]
          exact ih (w := { w with seen := event.revision }) (by simp only; omega)
            (by simp only; omega)
    · rw [receiveUpTo, receive, read_eq_ahead, eq, eq]
      split
      next nothing => exact absurd (Prod.mk.inj nothing).1 told
      next => rfl

end Watch

end FleetRegistry
