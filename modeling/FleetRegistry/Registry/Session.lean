import FleetRegistry.Registry.Basic
import FleetRegistry.Store.Watches

/-!
A session with a registry: the registry, and the watches that are open. The count of open watches
goes down when a watch is closed, when another one takes its name, and when its end is read.
-/
namespace FleetRegistry

structure Session (k : Kind) where
  registry : Registry k
  watches : Watches k := []

namespace Session

variable {k : Kind}

/-- No longer counts the watch under a name. -/
def uncount (name : String) (s : Session k) : Session k :=
  match s.watches.find? name with
  | some w =>
    if w.counted then
      { registry := s.registry.closeWatch
        watches := s.watches.map fun other =>
          if other.name = name then { other with counted := false } else other }
    else s
  | none => s

def close (name : String) (s : Session k) : Session k :=
  let s := s.uncount name
  { s with watches := s.watches.close name }

def keep (w : NamedWatch k) (s : Session k) : Session k :=
  let s := s.close w.name
  { s with watches := s.watches.keep w }

/-- Answers a call; a watch that it opens is kept under a name. -/
def serve (ambient : Ambient) (ns : Option String) (name : String) (call : Call k)
    (s : Session k) : Outcome (Answer k (Watch k)) × Session k :=
  let (outcome, registry) := s.registry.serve ambient ns call
  let s := { s with registry }
  match outcome with
  | .ok (.stream watch) => (outcome, s.keep { name, watch, counted := true })
  | _ => (outcome, s)

def read? (clock : Nat) (limit : Option Nat) (name : String) (s : Session k) :
    Option (Batch k × Session k) :=
  (s.watches.read? clock limit s.registry.store name).map fun (batch, watches) =>
    let s := { s with watches }
    (batch, if batch.ended then s.uncount name else s)

def withStore (store : Store k) (s : Session k) : Session k :=
  { s with registry := { s.registry with store } }

end Session

end FleetRegistry
