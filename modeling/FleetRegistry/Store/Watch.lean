import FleetRegistry.Store.Basic
import FleetRegistry.Text.Digits

/-!
Watches. A watch is a place in the history: it first delivers what it found when it was opened, and
then every later event that concerns it, in order. A watch that falls too far behind is told how
much it lost, and ends. A watch with a deadline ends when it is read after that.
-/
namespace FleetRegistry

/-- What a watcher is told about an event. A change that takes an object into the selection looks
like a creation, and one that takes it out like a deletion of the object as it was before. -/
def Event.seen? {k : Kind} (event : Event k) (ns : Option String) (selection : Selection) :
    Option (WatchEvent k) :=
  if !event.object.isIn ns then none
  else match event.change, selection.selects event.object with
    | .added, true => some (.added event.object)
    | .added, false => none
    | .deleted, true => some (.deleted event.object)
    | .deleted, false => none
    | .modified previous, current =>
      match selection.selects previous, current with
      | true, true => some (.modified event.object)
      | false, true => some (.added event.object)
      | true, false => some (.deleted (previous.withVersion event.revision))
      | false, false => none

structure Watch (k : Kind) where
  /-- What was found at the opening and is not yet delivered. -/
  pending : List (WatchEvent k)
  /-- The revision up to which later events have been looked at. -/
  seen : Nat
  ns : Option String
  selection : Selection
  /-- When the watch ends, on the clock of the calls. -/
  deadline : Option Nat := none
  ended : Bool := false

inductive Reading (k : Kind) where
  | item (item : Outcome (WatchEvent k))
  /-- Nothing more has happened so far. -/
  | waiting
  /-- Nothing more will come. -/
  | ended

structure Batch (k : Kind) where
  items : List (Outcome (WatchEvent k))
  /-- Whether the end of the watch was seen. -/
  ended : Bool

namespace Store

variable {k : Kind}

/-- How far a watch can fall behind. -/
def lagLimit : Nat := 256

/-- What a watch delivers first: all current objects, or the events after a version. -/
def initialEvents (ns : Option String) (selection : Selection) (version : Option String)
    (s : Store k) : Outcome (List (WatchEvent k)) :=
  match version.filter fun text => !text.isEmpty && text != "0" with
  | none => .ok ((s.selected ns selection 0).map fun entry => .added entry.2)
  | some text =>
    match Text.unsigned? ContinueToken.numberLimit text.toList with
    | none => .error (.badRequest (.invalidVersion text))
    | some since =>
      if since < s.compacted then .error (s.expired text)
      else .ok ((s.history.filter (since < ·.revision)).filterMap (·.seen? ns selection))

def watch (ns : Option String) (selection : Selection) (version : Option String) (s : Store k) :
    Outcome (Watch k) :=
  match s.initialEvents ns selection version with
  | .error error => .error error
  | .ok pending => .ok { pending, seen := s.revision, ns, selection }

/-- The first of some events that a watcher is told about, with its revision. -/
def firstSeen? (ns : Option String) (selection : Selection) :
    List (Event k) → Option (Nat × WatchEvent k)
  | [] => none
  | event :: rest =>
    match event.seen? ns selection with
    | some seen => some (event.revision, seen)
    | none => firstSeen? ns selection rest

def lagged (lost : Nat) : RegistryError := .expired "" (Nat.repr lost ++ " events dropped")

end Store

namespace Watch

variable {k : Kind}

def isOver (clock : Nat) (w : Watch k) : Bool := w.deadline.any (· ≤ clock)

/-- Reads events that happened after the opening. -/
def readLive (s : Store k) (w : Watch k) : Reading k × Watch k :=
  let behind := s.revision - w.seen
  if behind > Store.lagLimit then
    (.item (.error (Store.lagged (behind - Store.lagLimit))), { w with ended := true })
  else match Store.firstSeen? w.ns w.selection (s.history.filter (w.seen < ·.revision)) with
    | some (revision, event) => (.item (.ok event), { w with seen := revision })
    | none => (.waiting, { w with seen := s.revision })

def read (clock : Nat) (s : Store k) (w : Watch k) : Reading k × Watch k :=
  if w.ended then (.ended, w)
  else if w.isOver clock then (.ended, { w with ended := true })
  else match w.pending with
    | event :: rest => (.item (.ok event), { w with pending := rest })
    | [] => w.readLive s

def readUpTo (clock : Nat) (s : Store k) : Nat → Watch k → Batch k × Watch k
  | 0, w => (⟨[], false⟩, w)
  | n + 1, w =>
    match w.read clock s with
    | (.item item, w) =>
      let (batch, w) := readUpTo clock s n w
      ({ batch with items := item :: batch.items }, w)
    | (.waiting, w) => (⟨[], false⟩, w)
    | (.ended, w) => (⟨[], true⟩, w)

/-- More readings than a watch can give items. -/
def bound (s : Store k) (w : Watch k) : Nat := w.pending.length + s.history.length + 2

/-- Reads all that is there, or as much as is asked for. -/
def readAll (clock : Nat) (limit : Option Nat) (s : Store k) (w : Watch k) : Batch k × Watch k :=
  readUpTo clock s ((limit.map (min (w.bound s))).getD (w.bound s)) w

end Watch

end FleetRegistry
