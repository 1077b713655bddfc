import FleetRegistry.Store.Watch

/-!
Open watches, kept under names. Opening a watch under a name closes the one that had it before.
-/
namespace FleetRegistry

structure NamedWatch (k : Kind) where
  name : String
  watch : Watch k
  /-- Whether the watch counts among those that are open. -/
  counted : Bool := false

abbrev Watches (k : Kind) := List (NamedWatch k)

namespace Watches

variable {k : Kind}

def find? (name : String) (ws : Watches k) : Option (NamedWatch k) := List.find? (·.name = name) ws

def close (name : String) (ws : Watches k) : Watches k := ws.filter (·.name ≠ name)

def keep (w : NamedWatch k) (ws : Watches k) : Watches k := w :: ws.close w.name

def read? (clock : Nat) (limit : Option Nat) (s : Store k) (name : String) (ws : Watches k) :
    Option (Batch k × Watches k) :=
  (ws.find? name).map fun w =>
    let (batch, watch) := w.watch.readAll clock limit s
    (batch, ws.map fun other => if other.name = name then { other with watch } else other)

end Watches

end FleetRegistry
