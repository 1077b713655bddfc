import FleetRegistry.Error
import FleetRegistry.Number.Binary64

/-!
Counts of what the registry did: requests by outcome, their durations, rejected objects and open
watches. Each family of samples is kept in ascending order of its label values. Counts are whole
numbers without a bound; counted in binary floating point, they would stay at `2 ^ 53` from there on.
-/
namespace FleetRegistry

/-- Samples under label values, each combination once, in ascending order. -/
abbrev Family (α : Type) := List (List String × α)

namespace Family

/-- Changes the sample under some label values; a missing sample starts from a default. -/
def update {α : Type} (labels : List String) (start : α) (f : α → α) : Family α → Family α
  | [] => [(labels, f start)]
  | (other, sample) :: rest =>
    if labels = other then (other, f sample) :: rest
    else if labels < other then (labels, f start) :: (other, sample) :: rest
    else (other, sample) :: update labels start f rest

/-- The sample under some label values. -/
def sample? {α : Type} (labels : List String) (family : Family α) : Option α :=
  (family.find? (·.1 = labels)).map (·.2)

end Family

/-- How long requests took: how many stayed within each bound, their number and total time. -/
structure Durations where
  within : List Nat
  count : Nat
  sum : Number.Binary64

namespace Durations

/-- The bounds, in microseconds and as they are written in seconds. -/
def bounds : List (Nat × String) :=
  [(100, "0.0001"), (1000, "0.001"), (10000, "0.01"), (100000, "0.1"), (500000, "0.5"),
    (1000000, "1"), (5000000, "5"), (30000000, "30")]

def none : Durations := ⟨bounds.map fun _ => 0, 0, ⟨0⟩⟩

def seconds (micros : Nat) : Float :=
  (micros / 1000000).toFloat + (micros % 1000000 * 1000).toFloat / 1000000000

def add (micros : Nat) (d : Durations) : Durations where
  within := (d.within.zip bounds).map fun (count, bound, _) =>
    if micros ≤ bound then count + 1 else count
  count := d.count + 1
  sum := Number.Binary64.ofFloat (d.sum.toFloat + seconds micros)

end Durations

/-- All families. Labels are kind, outcome and verb, as far as a family has them. -/
structure Metrics where
  requests : Family Nat := []
  durations : Family Durations := []
  failures : Family Nat := []
  watches : Family Int := []

namespace Metrics

def recordRequest (kind verb outcome : String) (micros : Nat) (m : Metrics) : Metrics :=
  { m with
    requests := m.requests.update [kind, outcome, verb] 0 (· + 1)
    durations := m.durations.update [kind, verb] Durations.none (·.add micros) }

/-- The outcome of a result: success, or the reason of the error. -/
def outcomeOf (error : Option RegistryError) : String :=
  match error with
  | none => "success"
  | some error => error.reason

/-- One more request with its result; an invalid object also counts as rejected. -/
def recordResult (kind verb : String) (error : Option RegistryError) (micros : Nat)
    (m : Metrics) : Metrics :=
  let m := m.recordRequest kind verb (outcomeOf error) micros
  if error.any (·.isInvalid) then
    { m with failures := m.failures.update [kind, verb] 0 (· + 1) }
  else m

def watchStarted (kind : String) (m : Metrics) : Metrics :=
  { m with watches := m.watches.update [kind] 0 (· + 1) }

def watchStopped (kind : String) (m : Metrics) : Metrics :=
  { m with watches := m.watches.update [kind] 0 (· - 1) }

end Metrics

end FleetRegistry
