import FleetRegistry.Proofs.Watch.Following
import FleetRegistry.Proofs.Watch.Receiving

/-!
Slow watchers. Writes, readings and single receptions come in any order. Whatever the order, a watch
has yielded a beginning of all that it has to tell, or such a beginning and then, as the last thing
it says, how much it lost.
-/
namespace FleetRegistry

variable {k : Kind}

inductive Moment (k : Kind) where
  | write (write : Store.Write k)
  | receive (clock : Nat)
  | read (clock : Nat)

def Moment.write? : Moment k → Option (Store.Write k)
  | .write w => some w
  | .receive _ | .read _ => none

def Reading.items : Reading k → List (Outcome (WatchEvent k))
  | .item result => [result]
  | .waiting | .ended => []

/-- Someone who listens to a store: the store, the watch, and all that the watch has yielded. -/
structure Listener (k : Kind) where
  store : Store k
  watch : Watch k
  items : List (Outcome (WatchEvent k)) := []

namespace Listener

def told (l : Listener k) : List (WatchEvent k) := l.items.filterMap Except.toOption

def take (l : Listener k) (result : Reading k × Watch k) : Listener k :=
  { l with watch := result.2, items := l.items ++ result.1.items }

def step (l : Listener k) : Moment k → Listener k
  | .write w => { l with store := (w.apply l.store).2 }
  | .receive clock => l.take (l.watch.receive clock l.store)
  | .read clock => l.take (l.watch.read clock l.store)

def run (l : Listener k) (moments : List (Moment k)) : Listener k := moments.foldl step l

variable {l : Listener k} {ns : Option String} {selection : Selection} {deadline : Option Nat}
  {found told : List (WatchEvent k)} {log more : List (Event k)}

/-- How what a watch has yielded stands to what it told: it is the same, or it ends with word of
what was lost after some of the later events were looked at. Only a deadline ends a watch without
that word. -/
inductive Account (l : Listener k) (ns : Option String) (selection : Selection)
    (deadline : Option Nat) (found : List (WatchEvent k)) (more : List (Event k))
    (told : List (WatchEvent k)) : Prop
  | soFar (items : l.items = told.map .ok) (ends : l.watch.ended = true → deadline ≠ none)
  | lost {n : Nat} (taken : Nat) (positive : 0 < n)
    (behind : taken + Store.lagLimit + n ≤ more.length)
    (looked : told = found ++ (more.take taken).filterMap (·.seen? ns selection))
    (items : l.items = told.map .ok ++ [.error (Store.lagged n)]) (ended : l.watch.ended = true)

theorem told_append_ok (told : List (WatchEvent k)) (rest : List (Outcome (WatchEvent k))) :
    (told.map Except.ok ++ rest).filterMap Except.toOption
      = told ++ rest.filterMap Except.toOption := by
  rw [List.filterMap_append, List.filterMap_map]
  exact congrArg (· ++ _) List.filterMap_some

theorem told_of_items (items : l.items = told.map .ok) : l.told = told := by
  simpa [items, Listener.told] using told_append_ok told []

theorem Account.told_eq (h : l.Account ns selection deadline found more told) : l.told = told := by
  cases h with
  | soFar items => exact told_of_items items
  | lost _ _ _ _ items =>
    rw [Listener.told, items, told_append_ok]
    exact List.append_nil told

/-- Where a listener stands whose watch was opened after some events of a journal. -/
structure Stands (l : Listener k) (ns : Option String) (selection : Selection)
    (deadline : Option Nat) (found : List (WatchEvent k)) (log more : List (Event k))
    (told : List (WatchEvent k)) : Prop where
  attends : Follower.Attends ⟨l.store, l.watch, told⟩ ns selection found log more
  since : log.length ≤ l.watch.seen
  sameDeadline : l.watch.deadline = deadline
  account : l.Account ns selection deadline found more told

theorem Stands.write (h : l.Stands ns selection deadline found log more told)
    (w : Store.Write k) :
    (l.step (.write w)).Stands ns selection deadline found log
      (more ++ (w.event? l.store).toList) told := by
  refine ⟨h.attends.grows (h.attends.remembers.apply_event w).1, h.since, h.sameDeadline, ?_⟩
  cases h.account with
  | soFar items ends => exact .soFar items ends
  | lost taken positive behind looked items ended =>
    refine .lost taken positive ?_ ?_ items ended
    · rw [List.length_append]
      omega
    · rw [looked, List.take_append_of_le_length (by omega)]

theorem Stands.told_of_drained (h : l.Stands ns selection deadline found log more told)
    (drained : l.watch.pending = []) :
    told = found ++ (more.take (l.watch.seen - log.length)).filterMap (·.seen? ns selection) := by
  obtain ⟨taken, seen⟩ := Nat.exists_eq_add_of_le h.since
  have ⟨_, sameNs, sameSelection, _, complete⟩ := h.attends
  simp only at sameNs sameSelection complete
  rw [Watch.rest, drained, sameNs, sameSelection, seen, List.drop_length_add_append,
    List.nil_append] at complete
  -- What was not looked at is still to come, so it goes out on both sides.
  nth_rewrite 2 [← List.take_append_drop taken more] at complete
  rw [List.filterMap_append, ← List.append_assoc, List.append_cancel_right_eq] at complete
  rw [complete, seen, Nat.add_sub_cancel_left]

theorem Stands.take (h : l.Stands ns selection deadline found log more told)
    (running : l.watch.ended = false) {clock : Nat} {reading : Reading k} {w' : Watch k}
    (given : l.watch.Gives (log ++ more) clock reading w') :
    (l.take (reading, w')).Stands ns selection deadline found log more
      (told ++ reading.events) := by
  have attends := h.attends.gives given
  -- A watch that has said that it lost something has ended.
  have items : l.items = told.map .ok := by
    cases h.account with
    | soFar items => exact items
    | lost _ _ _ _ _ ended => simp [running] at ended
  cases given with
  | ended finished =>
    refine ⟨attends, h.since, h.sameDeadline, .soFar ?_ fun _ none => ?_⟩
    · simp [Listener.take, items, Reading.items, Reading.events]
    · simp [running, Watch.isOver, h.sameDeadline, none] at finished
  | lost drained positive behind =>
    refine ⟨attends, h.since, h.sameDeadline,
      .lost (l.watch.seen - log.length) positive ?_ ?_ ?_ rfl⟩
    · have since := h.since
      rw [List.length_append] at behind
      omega
    · rw [Reading.events, List.append_nil]
      exact h.told_of_drained drained
    · simp [Listener.take, items, Reading.items, Reading.events]
  | item later _ _ | waiting later _ =>
    refine ⟨attends, h.since.trans later.advances, later.deadline.trans h.sameDeadline,
      .soFar ?_ fun ended => ?_⟩
    · simp [Listener.take, items, Reading.items, Reading.events]
    · exact absurd (later.ended.symm.trans ended) (by simp [running])

theorem take_of_ended (ended : l.watch.ended = true) (clock : Nat)
    (live : Reading k × Watch k) : l.take (l.watch.ahead clock live) = l := by
  simp [take, Watch.ahead, ended, Reading.items]

theorem Stands.listen (h : l.Stands ns selection deadline found log more told) {clock : Nat}
    {live : Reading k × Watch k}
    (given : l.watch.Gives (log ++ more) clock (l.watch.ahead clock live).1
      (l.watch.ahead clock live).2) :
    ∃ told', (l.take (l.watch.ahead clock live)).Stands ns selection deadline found log more
      told' := by
  cases ended : l.watch.ended with
  | true =>
    rw [take_of_ended ended]
    exact ⟨told, h⟩
  | false => exact ⟨_, h.take ended given⟩

theorem Stands.step (h : l.Stands ns selection deadline found log more told) (m : Moment k) :
    ∃ told', (l.step m).Stands ns selection deadline found log
      (more ++ l.store.published m.write?.toList) told' := by
  have ⟨remembers, _, _, seen, _⟩ := h.attends
  cases m with
  | write w => exact ⟨told, by simpa [Moment.write?, Store.published] using h.write w⟩
  | receive clock =>
    obtain ⟨told', stands⟩ := h.listen (Watch.receive_gives clock remembers seen)
    rw [Moment.write?, Option.toList_none, Store.published, List.append_nil]
    exact ⟨told', stands⟩
  | read clock =>
    obtain ⟨told', stands⟩ := h.listen (Watch.read_gives clock remembers seen)
    rw [Moment.write?, Option.toList_none, Store.published, List.append_nil]
    exact ⟨told', stands⟩

theorem store_step (l : Listener k) (m : Moment k) :
    (l.step m).store = l.store.after m.write?.toList := by
  cases m <;> rfl

theorem Stands.run (h : l.Stands ns selection deadline found log more told)
    (moments : List (Moment k)) :
    ∃ told', (l.run moments).Stands ns selection deadline found log
      (more ++ l.store.published (moments.filterMap Moment.write?)) told' := by
  induction moments generalizing l more told with
  | nil => exact ⟨told, by simpa [Store.published, Listener.run] using h⟩
  | cons m rest ih =>
    obtain ⟨_, next⟩ := h.step m
    obtain ⟨told', last⟩ := ih next
    have writes : (m :: rest).filterMap Moment.write?
        = m.write?.toList ++ rest.filterMap Moment.write? := by
      cases m <;> rfl
    rw [List.append_assoc, store_step, ← Store.published_append, ← writes] at last
    exact ⟨told', last⟩

theorem stands_of_opened {s : Store k} (h : s.Remembers log) {version : Option String} {w : Watch k}
    (opened : s.watch ns selection version = .ok w) (deadline : Option Nat) :
    s.initialEvents ns selection version = .ok w.pending
      ∧ Stands ⟨s, { w with deadline }, []⟩ ns selection deadline w.pending log [] [] := by
  unfold Store.watch at opened
  split at opened
  next => cases opened
  next pending found =>
    cases opened
    refine ⟨found, ⟨by simpa using h, rfl, rfl, ?_, ?_⟩, ?_, rfl, .soFar rfl nofun⟩
    · simp [h.revision]
    · simp [Watch.rest, h.revision]
    · simp [h.revision]

theorem Stands.deadline_of_ended (h : l.Stands ns selection deadline found log more told)
    (ends : l.watch.ended = true → deadline ≠ none) {clock : Nat}
    (ended : (l.watch.read clock l.store).1 = .ended) : deadline ≠ none := by
  have given : l.watch.Gives (log ++ more) clock _ _ :=
    Watch.read_gives clock h.attends.remembers h.attends.seen
  rw [ended] at given
  generalize (l.watch.read clock l.store).2 = w' at given
  cases given with
  | ended finished =>
    rcases finished with already | now
    · exact ends already
    · exact fun none => by simp [Watch.isOver, h.sameDeadline, none] at now

end Listener

namespace Watch

/-- Whatever is written while a watch is open, and whenever it is read: what it has yielded is a
beginning of what it found at its opening and all later events that concern it, in order, and all of
that once a reading waits. Only a watch that was left more than so many events behind says how many
it lost; after that it says nothing. -/
theorem no_silent_gap (earlier : List (Store.Write k)) (ns : Option String) (selection : Selection)
    (version : Option String) (deadline : Option Nat) {w : Watch k}
    (opened : ((Store.empty k).after earlier).watch ns selection version = .ok w)
    (moments : List (Moment k)) :
    let opening := (Store.empty k).after earlier
    let l := Listener.run ⟨opening, { w with deadline }, []⟩ moments
    let later := opening.published (moments.filterMap Moment.write?)
    ∃ found, opening.initialEvents ns selection version = .ok found
      ∧ later.map (·.revision) = List.range' (opening.revision + 1) later.length
      ∧ ((∃ told, told <+: found ++ later.filterMap (·.seen? ns selection)
          ∧ l.items = told.map .ok
          ∧ ∀ clock,
            ((l.watch.read clock l.store).1 = .waiting →
              told = found ++ later.filterMap (·.seen? ns selection))
            ∧ ((l.watch.read clock l.store).1 = .ended → deadline ≠ none))
        ∨ ∃ taken lost, 0 < lost ∧ taken + Store.lagLimit + lost ≤ later.length
          ∧ l.items = (found ++ (later.take taken).filterMap (·.seen? ns selection)).map .ok
            ++ [.error (Store.lagged lost)]
          ∧ ∀ clock, l.watch.read clock l.store = (.ended, l.watch)) := by
  intro opening l later
  obtain ⟨log, before⟩ := Store.exists_journal earlier
  obtain ⟨found, start⟩ := Listener.stands_of_opened before opened deadline
  obtain ⟨told, stands⟩ := start.run moments
  rw [List.nil_append] at stands
  refine ⟨_, found, ?_, ?_⟩
  · rw [before.revision]
    exact stands.attends.remembers.legal.revisions_after
  · cases stands.account with
    | soFar items ends =>
      have complete := stands.attends.complete
      refine .inl ⟨told, ⟨_, complete⟩, items, fun clock => ⟨fun waiting => ?_,
        stands.deadline_of_ended ends⟩⟩
      rw [← complete,
        rest_of_waiting stands.attends.remembers stands.attends.seen waiting, List.append_nil]
    | lost taken positive behind looked items ended =>
      exact .inr ⟨taken, _, positive, behind, looked ▸ items, fun clock => read_of_ended ended⟩

/-- A watcher of one cluster receives its creation, passes over another cluster, and then reads the
change of the first. -/
theorem no_silent_gap_two_clusters :
    let selection := { Selection.everything with field := .ofField "metadata.name" "a" }
    let moments := [.write (.create .plain (.bareCluster "a")), .receive 0,
      .write (.create .plain (.bareCluster "b")), .receive 0,
      .write (.update (.bareCluster "a")), .read 0]
    let later := (Store.empty .cluster).published (moments.filterMap Moment.write?)
    ∃ w, (Store.empty .cluster).watch none selection none = .ok w
      ∧ let l := Listener.run ⟨.empty .cluster, w, []⟩ moments
        l.told.map (·.name) = ["Added", "Modified"]
        ∧ l.told <+: later.filterMap (·.seen? none selection) := by
  intro selection moments later
  refine ⟨_, rfl, by decide +kernel, ?_⟩
  obtain ⟨found, none, -, ⟨told, first, items, -⟩ | ⟨taken, lost, positive, behind, -⟩⟩ :=
    no_silent_gap [] none selection none none rfl moments
  · cases none
    obtain rfl := Listener.told_of_items items
    exact first
  · have few : later.length = 3 := by decide +kernel
    have behind : taken + 256 + lost ≤ later.length := behind
    omega

end Watch

end FleetRegistry
