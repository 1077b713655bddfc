import FleetRegistry.Metrics.Basic
import FleetRegistry.Number.Shortest

/-!
Metrics as text, one sample a line. Families come in ascending order of their names and are left
out when they are empty. The buckets of a duration are cumulative.
-/
namespace FleetRegistry.Metrics

def nameStart : String := "clusterregistry_k8s_io_"

def escapeLabel (value : String) : String :=
  String.ofList <| value.toList.flatMap fun c =>
    if c = '\\' then ['\\', '\\']
    else if c = '"' then ['\\', '"']
    else if c = '\n' then ['\\', 'n']
    else [c]

def labelsText (labels : List (String × String)) : String :=
  "\x7b" ++ ",".intercalate (labels.map fun (name, value) =>
    name ++ "=\"" ++ escapeLabel value ++ "\"") ++ "\x7d"

def line (name : String) (labels : List (String × String)) (value : String) : String :=
  nameStart ++ name ++ labelsText labels ++ " " ++ value

/-- A family with its heading, unless it is empty. -/
def familyLines {α : Type} (name type help : String) (labels : List String)
    (sampleLines : List (String × String) → α → List String) (family : Family α) : List String :=
  if family.isEmpty then []
  else
    ["# HELP " ++ nameStart ++ name ++ " " ++ help,
      "# TYPE " ++ nameStart ++ name ++ " " ++ type]
    ++ family.flatMap fun (values, sample) => sampleLines (labels.zip values) sample

def durationLines (name : String) (labels : List (String × String)) (d : Durations) :
    List String :=
  (Durations.bounds.zip d.within).map (fun ((_, bound), count) =>
      line (name ++ "_bucket") (labels ++ [("le", bound)]) (Nat.repr count))
    ++ [line (name ++ "_bucket") (labels ++ [("le", "+Inf")]) (Nat.repr d.count),
      line (name ++ "_sum") labels d.sum.plainText,
      line (name ++ "_count") labels (Nat.repr d.count)]

def lines (m : Metrics) : List String :=
  familyLines "request_duration_seconds" "histogram"
      "Duration of registry requests in seconds by kind and verb" ["kind", "verb"]
      (durationLines "request_duration_seconds") m.durations
    ++ familyLines "requests_total" "counter"
      "Total number of registry requests by kind, verb and outcome" ["kind", "outcome", "verb"]
      (fun labels count => [line "requests_total" labels (Nat.repr count)]) m.requests
    ++ familyLines "validation_failures_total" "counter"
      "Total number of objects rejected by validation by kind and verb" ["kind", "verb"]
      (fun labels count => [line "validation_failures_total" labels (Nat.repr count)]) m.failures
    ++ familyLines "watches_active" "gauge" "Number of open watch streams by kind" ["kind"]
      (fun labels count => [line "watches_active" labels (toString count)]) m.watches

end FleetRegistry.Metrics
