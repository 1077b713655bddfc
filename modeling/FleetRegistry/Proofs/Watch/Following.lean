import FleetRegistry.Proofs.Registry.Effects
import FleetRegistry.Proofs.Watch.Listing
import FleetRegistry.Proofs.Watch.Reading

/-!
Following a store from a list. A client lists a query, opens a watch from the version of the list,
and makes of each event what it says. As long as its watch has not ended, what it has once it has
read everything is what a new list would show.
-/
namespace FleetRegistry

variable {k : Kind}

/-! ## Versions of events -/

def WatchEvent.version? : WatchEvent k → Option String
  | added o => o.metadata.resourceVersion
  | modified o => o.metadata.resourceVersion
  | deleted o => o.metadata.resourceVersion
  | bookmark version => some version

/-- Whether events come in the order of their revisions, all of them after a given one. -/
def Ascending (since : Nat) (events : List (WatchEvent k)) : Prop :=
  ∃ revisions : List Nat, events.map WatchEvent.version? = revisions.map (some <| Nat.repr ·)
    ∧ (since :: revisions).Pairwise (· < ·)

theorem Ascending.of_append {since : Nat} {first rest : List (WatchEvent k)}
    (h : Ascending since (first ++ rest)) : Ascending since first := by
  obtain ⟨revisions, versions, sorted⟩ := h
  rw [List.map_append] at versions
  obtain ⟨a, b, rfl, eq, -⟩ := List.append_eq_map_iff.1 versions
  refine ⟨a, eq.symm, sorted.sublist ?_⟩
  exact (List.sublist_append_left a b).cons_cons since

namespace Event

variable {ns : Option String} {selection : Selection}

theorem version_of_seen {e : Event k} {told : WatchEvent k}
    (version : e.object.metadata.resourceVersion = some (Nat.repr e.revision))
    (h : e.seen? ns selection = some told) : told.version? = some (Nat.repr e.revision) := by
  unfold seen? at h
  grind [WatchEvent.version?, Object.version_withVersion]

def concerning (ns : Option String) (selection : Selection) (events : List (Event k)) :
    List (Event k) :=
  events.filter fun e => (e.seen? ns selection).isSome

theorem mem_concerning {e : Event k} {events : List (Event k)} :
    e ∈ concerning ns selection events ↔ e ∈ events ∧ (e.seen? ns selection).isSome = true :=
  List.mem_filter

theorem Legal.versions_seen {log rest : List (Event k)} (h : Legal (log ++ rest)) :
    (rest.filterMap (·.seen? ns selection)).map WatchEvent.version?
      = (concerning ns selection rest).map (some <| Nat.repr ·.revision) := by
  have version (e : Event k) (mem : e ∈ rest) := h.version_of_mem mem
  clear h
  induction rest with
  | nil => rfl
  | cons e rest ih =>
    have first := version e List.mem_cons_self
    specialize ih fun e mem => version e (List.mem_cons_of_mem _ mem)
    cases seen : e.seen? ns selection with
    | none => simpa [concerning, seen] using ih
    | some x => simpa [concerning, seen, version_of_seen first seen] using ih

theorem Legal.concerning_sorted {log events : List (Event k)} (h : Legal log)
    (inside : events.Sublist log) :
    (concerning ns selection events).Pairwise (·.revision < ·.revision) := by
  have all : (log.map (·.revision)).Pairwise (· < ·) := by
    rw [h.revisions]
    exact List.pairwise_lt_range'
  exact (List.pairwise_map.1 all).sublist (List.filter_sublist.trans inside)

theorem Legal.ascending {log rest : List (Event k)} (h : Legal (log ++ rest)) :
    Ascending log.length (rest.filterMap (·.seen? ns selection)) := by
  refine ⟨(concerning ns selection rest).map (·.revision), ?_, List.pairwise_cons.2 ⟨?_, ?_⟩⟩
  · rw [h.versions_seen, List.map_map]
    rfl
  · rw [List.forall_mem_map]
    exact fun e mem => h.lt_revision_after (mem_concerning.1 mem).1
  · exact List.pairwise_map.2 (h.concerning_sorted (List.sublist_append_right log rest))

end Event

/-! ## Clients -/

/-- A client that follows a store: the store, its watch, and what it was told. -/
structure Follower (k : Kind) where
  store : Store k
  watch : Watch k
  told : List (WatchEvent k) := []

/-- What can happen while a client follows a store: someone makes a call, or the client reads. -/
inductive Turn (k : Kind) where
  | request (request : Request k)
  | read (clock : Nat)

def Reading.events : Reading k → List (WatchEvent k)
  | item (.ok event) => [event]
  | item (.error _) => []
  | waiting => []
  | ended => []

namespace Follower

def turn (policy : WritePolicy) (f : Follower k) : Turn k → Follower k
  | .request r => { f with store := (Registry.perform policy r.ambient r.ns r.call f.store).2 }
  | .read clock =>
    let (reading, watch) := f.watch.read clock f.store
    { f with watch, told := f.told ++ reading.events }

def run (policy : WritePolicy) (f : Follower k) (turns : List (Turn k)) : Follower k :=
  turns.foldl (turn policy) f

/-- Where a client stands that opened a watch after some events of a journal: what it was told and
what its watch still has to deliver is what it found at the opening and all that came later. -/
structure Attends (f : Follower k) (ns : Option String) (selection : Selection)
    (found : List (WatchEvent k)) (log more : List (Event k)) : Prop where
  remembers : f.store.Remembers (log ++ more)
  sameNs : f.watch.ns = ns
  sameSelection : f.watch.selection = selection
  seen : f.watch.seen ≤ (log ++ more).length
  complete : f.told ++ f.watch.rest (log ++ more)
    = found ++ more.filterMap (·.seen? ns selection)

variable {f : Follower k} {ns : Option String} {selection : Selection}
  {found : List (WatchEvent k)} {log more : List (Event k)} {policy : WritePolicy}

theorem Attends.grows (h : f.Attends ns selection found log more) {s' : Store k}
    {next : List (Event k)} (later : s'.Remembers (log ++ more ++ next)) :
    Attends { f with store := s' } ns selection found log (more ++ next) := by
  have ⟨_, sameNs, sameSelection, seen, complete⟩ := h
  rw [List.append_assoc] at later
  refine ⟨later, sameNs, sameSelection, ?_, ?_⟩
  · rw [← List.append_assoc, List.length_append]
    exact Nat.le_trans seen (Nat.le_add_right _ _)
  · rw [← List.append_assoc log, List.filterMap_append, ← List.append_assoc found, ← complete]
    simp only
    rw [Watch.rest_append seen, sameNs, sameSelection, List.append_assoc]

theorem Attends.gives (h : f.Attends ns selection found log more) {clock : Nat}
    {reading : Reading k} {w' : Watch k}
    (given : f.watch.Gives (log ++ more) clock reading w') :
    Attends { f with watch := w', told := f.told ++ reading.events } ns selection found log
      more := by
  have ⟨remembers, sameNs, sameSelection, seen, complete⟩ := h
  cases given with
  | ended | lost =>
    refine ⟨remembers, sameNs, sameSelection, seen, ?_⟩
    rw [← complete, Reading.events, List.append_nil]
    rfl
  | item later rest =>
    refine ⟨remembers, later.ns.trans sameNs, later.selection.trans sameSelection, later.seen, ?_⟩
    rw [← complete, rest, Reading.events, List.append_assoc, List.singleton_append]
  | waiting later rest =>
    refine ⟨remembers, later.ns.trans sameNs, later.selection.trans sameSelection, later.seen, ?_⟩
    rw [← complete, Reading.events, List.append_nil]
    exact congrArg _ rest

theorem Attends.turn (policy : WritePolicy) (h : f.Attends ns selection found log more)
    (t : Turn k) :
    ∃ more', (f.turn policy t).Attends ns selection found log more' := by
  cases t with
  | request r =>
    obtain ⟨next, later⟩ := h.remembers.perform policy r
    exact ⟨more ++ next, h.grows later⟩
  | read clock => exact ⟨more, h.gives (Watch.read_gives clock h.remembers h.seen)⟩

theorem Attends.run (policy : WritePolicy) (h : f.Attends ns selection found log more)
    (turns : List (Turn k)) :
    ∃ more', (f.run policy turns).Attends ns selection found log more' := by
  induction turns generalizing f more with
  | nil => exact ⟨more, h⟩
  | cons t rest ih =>
    obtain ⟨_, next⟩ := h.turn policy t
    exact ih next

end Follower

/-! ## The opening -/

namespace Store

variable {s : Store k} {log more : List (Event k)} {ns : Option String} {selection : Selection}

theorem Remembers.initialEvents_eq (h : s.Remembers log) {text : String} (notEmpty : text ≠ "")
    (notZero : text ≠ "0") :
    s.initialEvents ns selection (some text)
      = match Text.unsigned? ContinueToken.numberLimit text.toList with
        | none => .error (.badRequest (.invalidVersion text))
        | some since =>
          if since < s.compacted then .error (s.expired text)
          else .ok ((log.drop since).filterMap (·.seen? ns selection)) := by
  have kept : (some text).filter (fun text => !text.isEmpty && text != "0") = some text := by
    simp [Option.filter_some, notEmpty, notZero]
  unfold Store.initialEvents
  rw [kept]
  simp only
  cases Text.unsigned? ContinueToken.numberLimit text.toList with
  | none => rfl
  | some since =>
    dsimp only
    split
    next => rfl
    next reach => rw [h.history_after (Nat.le_of_not_lt reach)]

theorem Remembers.initialEvents_of_text (h : s.Remembers log) {text : String}
    (notEmpty : text ≠ "") (notZero : text ≠ "0") {found : List (WatchEvent k)}
    (opened : s.initialEvents ns selection (some text) = .ok found) :
    ∃ since, Text.unsigned? ContinueToken.numberLimit text.toList = some since
      ∧ found = (log.drop since).filterMap (·.seen? ns selection) := by
  rw [h.initialEvents_eq notEmpty notZero] at opened
  split at opened
  next => cases opened
  next since parsed =>
    split at opened
    next => cases opened
    next => exact ⟨since, parsed, (Except.ok.inj opened).symm⟩

theorem Remembers.initialEvents (h : s.Remembers (log ++ more)) {found : List (WatchEvent k)}
    (opened : s.initialEvents ns selection (some (Nat.repr log.length)) = .ok found) :
    if log.length = 0 then found = (s.whole ns selection).items.map .added
    else found = more.filterMap (·.seen? ns selection) := by
  split
  next zero =>
    have absent : (some (Nat.repr 0)).filter (fun text => !text.isEmpty && text != "0") = none := by
      decide
    unfold Store.initialEvents at opened
    rw [zero, absent] at opened
    cases opened
    rw [whole, List.map_map]
    rfl
  next positive =>
    have read := Text.digits?_repr log.length
    have notEmpty : Nat.repr log.length ≠ "" := fun eq => by
      rw [eq] at read
      cases read
    have notZero : Nat.repr log.length ≠ "0" := fun eq => by
      rw [eq] at read
      exact positive (Option.some.inj read).symm
    obtain ⟨since, parsed, found⟩ := h.initialEvents_of_text notEmpty notZero opened
    obtain rfl : log.length = since := by
      rw [Text.unsigned?_of_digits read] at parsed
      split at parsed <;> simp_all
    rw [found, List.drop_left]

theorem Remembers.opening (named : ns ≠ some "") (h : s.Remembers (log ++ more))
    {found : List (WatchEvent k)}
    (opened : s.initialEvents ns selection (some (Nat.repr log.length)) = .ok found) :
    WatchEvent.AllPlaced ((Event.replay log).only (Object.wanted ns selection)) found
      ∧ WatchEvent.follow ((Event.replay log).only (Object.wanted ns selection)) found
        = (Event.replay (log ++ more)).only (Object.wanted ns selection) := by
  have shape := h.initialEvents opened
  split at shape
  next zero =>
    obtain rfl : log = [] := List.eq_nil_of_length_eq_zero zero
    subst shape
    have ⟨placed, follows⟩ := WatchEvent.follow_added (v := fun _ => none)
      (h.indexed.keys_whole ns selection) fun _ _ => rfl
    refine ⟨placed, follows.trans ?_⟩
    rw [h.indexed.ofList_whole, h.view]
    simp
  next positive =>
    subst shape
    exact Event.seen?_run named selection h.legal

end Store

/-! ## List, then watch -/

/-- Whether a client was told things in their order: from a positive revision on the events after
it, from revision zero first of all objects that were there when the watch was opened. -/
def InOrder (since : Nat) (current : List (Object k)) (told : List (WatchEvent k)) : Prop :=
  if since = 0 then told <+: current.map .added ∨ current.map .added <+: told
  else Ascending since told

theorem InOrder.of_append {since : Nat} {current : List (Object k)}
    {first rest : List (WatchEvent k)} (h : InOrder since current (first ++ rest)) :
    InOrder since current first := by
  unfold InOrder at *
  split at h
  next =>
    rw [if_pos ‹_›]
    rcases h with inside | beyond
    · exact .inl ((List.prefix_append first rest).trans inside)
    · exact List.prefix_or_prefix_of_prefix (List.prefix_append first rest) beyond
  next =>
    rw [if_neg ‹_›]
    exact h.of_append

theorem Store.Remembers.told {s : Store k} {log more rest : List (Event k)} {ns : Option String}
    {selection : Selection} {found : List (WatchEvent k)} (named : ns ≠ some "")
    (h : s.Remembers (log ++ more)) (legal : Event.Legal (log ++ more ++ rest))
    (opened : s.initialEvents ns selection (some (Nat.repr log.length)) = .ok found) :
    InOrder log.length (s.whole ns selection).items (found ++ rest.filterMap (·.seen? ns selection))
      ∧ WatchEvent.AllPlaced ((Event.replay log).only (Object.wanted ns selection))
        (found ++ rest.filterMap (·.seen? ns selection))
      ∧ WatchEvent.follow ((Event.replay log).only (Object.wanted ns selection))
        (found ++ rest.filterMap (·.seen? ns selection))
        = (Event.replay (log ++ more ++ rest)).only (Object.wanted ns selection) := by
  have ⟨placed, follows⟩ := h.opening named opened
  have ⟨placed', follows'⟩ := Event.seen?_run named selection legal
  rw [WatchEvent.allPlaced_append, WatchEvent.follow_append, follows]
  refine ⟨?_, ⟨placed, placed'⟩, follows'⟩
  have shape := h.initialEvents opened
  unfold InOrder
  split at shape
  next zero =>
    rw [if_pos zero, shape]
    exact .inr (List.prefix_append _ _)
  next positive =>
    rw [if_neg positive, shape, ← List.filterMap_append]
    rw [List.append_assoc] at legal
    exact legal.ascending

namespace Registry

variable {policy : WritePolicy} {q : Query} {s : Store k}

theorem list_query {selection : Selection} (unlimited : selection.limit = none)
    (first : selection.continueToken = none)
    (parsed : Selection.ofListOptions q.listOptions = .ok selection) (s : Store k) :
    list q.ns q.listOptions s = .ok (s.whole (range k q.ns) selection) := by
  unfold list
  rw [parsed]
  exact Store.list_unpaged unlimited first

theorem watch_query {selection : Selection} {version : Option String} {timeout : Option Nat}
    (parsed : Selection.ofWatchOptions (q.watchOptions version timeout) = .ok selection)
    {clock : Nat} {w : Watch k}
    (opened : watch clock q.ns (q.watchOptions version timeout) s = .ok w) :
    s.initialEvents (range k q.ns) selection version = .ok w.pending
      ∧ w.seen = s.revision ∧ w.ns = range k q.ns ∧ w.selection = selection := by
  unfold watch Store.watch at opened
  rw [parsed] at opened
  simp only [Query.watchOptions] at opened
  cases found : s.initialEvents (range k q.ns) selection version with
  | error error => simp [found] at opened
  | ok pending =>
    simp only [found] at opened
    cases opened
    exact ⟨rfl, rfl, rfl, rfl⟩

/-- A client lists a query and later opens a watch of the same query from the version of the list.
Whatever is called in between and afterwards, and whenever the client reads: every event can be
placed in what the client has, events come in their order, and once the client has read everything,
unless its watch has ended by then, it has exactly what a list would show. -/
theorem list_then_watch (policy : WritePolicy) (q : Query) (earlier between : List (Request k))
    (turns : List (Turn k)) (clock : Nat) (timeout : Option Nat) {page : Page k} {w : Watch k}
    (listed : list q.ns q.listOptions (after policy (.empty k) earlier) = .ok page)
    (opened : watch clock q.ns (q.watchOptions page.resourceVersion timeout)
      (after policy (.empty k) (earlier ++ between)) = .ok w) :
    let opening := after policy (.empty k) (earlier ++ between)
    let f := Follower.run policy ⟨opening, w, []⟩ turns
    ∃ since current,
      page.resourceVersion = some (Nat.repr since)
      ∧ list q.ns q.listOptions opening = .ok current
      ∧ InOrder since current.items f.told
      ∧ WatchEvent.AllPlaced (View.ofList page.items) f.told
      ∧ ∀ clock, (f.watch.readAll clock none f.store).1.ended = false →
        ∃ events now, (f.watch.readAll clock none f.store).1.items = events.map .ok
          ∧ list q.ns q.listOptions f.store = .ok now
          ∧ (now.items.map Object.key).Nodup
          ∧ InOrder since current.items (f.told ++ events)
          ∧ WatchEvent.AllPlaced (View.ofList page.items) (f.told ++ events)
          ∧ WatchEvent.follow (View.ofList page.items) (f.told ++ events)
            = View.ofList now.items := by
  intro opening f
  obtain ⟨log, start⟩ := Store.remembers_empty.calls policy earlier
  obtain ⟨more, middle⟩ := start.calls policy between
  rw [← after_append] at middle
  rw [List.nil_append] at start middle
  rcases q.selection_cases with ⟨error, refused⟩ | ⟨selection, unlimited, first, parsed, same⟩
  · simp [list, refused] at listed
  rw [list_query unlimited first parsed] at listed
  cases listed
  obtain ⟨found, seen, sameNs, sameSelection⟩ := watch_query (same _ _) opened
  have named := range_named k q.ns
  have since : (after policy (.empty k) earlier).revision = log.length := start.revision
  have attends : Follower.Attends ⟨opening, w, []⟩ (range k q.ns) selection w.pending
      (log ++ more) [] := by
    refine ⟨by simpa using middle, sameNs, sameSelection, ?_, ?_⟩
    · simp [seen, middle.revision]
    · simp [Watch.rest, seen, middle.revision]
  obtain ⟨later, attends⟩ := attends.run policy turns
  simp only [Store.whole, since] at found
  obtain ⟨order, placed, follows⟩ := middle.told named attends.remembers.legal found
  rw [← attends.complete] at order placed follows
  rw [start.indexed.ofList_whole, start.view]
  refine ⟨log.length, _, by rw [Store.whole, since], list_query unlimited first parsed _,
    order.of_append, (WatchEvent.allPlaced_append _ _ _).1 placed |>.1, fun clock running => ?_⟩
  refine ⟨_, _, Watch.readAll_items attends.remembers attends.seen running,
    list_query unlimited first parsed _, attends.remembers.indexed.keys_whole _ _, order, placed,
    ?_⟩
  rw [follows, attends.remembers.indexed.ofList_whole, attends.remembers.view]

/-- A client that lists one cluster is told of a second one, and of the deletion of the first. -/
theorem list_then_watch_two_clusters :
    let earlier := [.plain (.create (.bareCluster "a") {})]
    let between := [.plain (.create (.bareCluster "b") {})]
    let turns := [.request (.plain (.delete "a" {})), .read 0, .read 0]
    let opening := after {} (.empty .cluster) (earlier ++ between)
    ∃ page w, list none {} (after {} (.empty .cluster) earlier) = .ok page
      ∧ watch 0 none { resourceVersion := page.resourceVersion } opening = .ok w
      ∧ let f := Follower.run {} ⟨opening, w, []⟩ turns
        WatchEvent.AllPlaced (View.ofList page.items) f.told
        ∧ f.told.map (·.name) = ["Added", "Deleted"] := by
  intro earlier between turns opening
  have told : (list none {} (after {} (.empty .cluster) earlier)).toOption.bind (fun page =>
      (watch 0 none { resourceVersion := page.resourceVersion } opening).toOption.map
        fun w => (Follower.run {} ⟨opening, w, []⟩ turns).told.map (·.name))
      = some ["Added", "Deleted"] := by decide +kernel
  obtain ⟨page, listed, told⟩ := Option.bind_eq_some_iff.1 told
  obtain ⟨w, opened, told⟩ := Option.map_eq_some_iff.1 told
  rw [Outcome.toOption_eq_some] at listed opened
  obtain ⟨_, _, _, _, _, placed, _⟩ :=
    list_then_watch {} {} earlier between turns 0 none listed opened
  exact ⟨page, w, listed, opened, placed, told⟩

end Registry

end FleetRegistry
