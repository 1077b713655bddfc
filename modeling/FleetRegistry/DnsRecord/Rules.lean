import FleetRegistry.DnsRecord.Basic
import FleetRegistry.Field.Error
import FleetRegistry.Name.Rule

/-!
Rules for records: a federation, a domain that may end in dots, a lifetime that is not negative,
and member clusters that are named and differ from each other.
-/
namespace FleetRegistry

namespace DnsRecordSpec

/-- A domain without the dots at its end. -/
def trimDots (suffix : String) : List Char :=
  (suffix.toList.reverse.dropWhile (· = '.')).reverse

def errors (s : DnsRecordSpec) (path : FieldPath) : FieldErrors :=
  (if s.federationName.isEmpty then [.required (path.child "federationName") ""] else [])
    ++ (match s.dnsSuffix with
      | none => []
      | some suffix => (Name.subdomainFaults (trimDots suffix)).map fun fault =>
        .invalid (path.child "dnsSuffix") suffix fault.message)
    ++ (match s.recordTtl with
      | none => []
      | some ttl =>
        if ttl < 0 then
          [.invalid (path.child "recordTTL") (toString ttl.toInt)
            "must be greater than or equal to 0"]
        else [])

end DnsRecordSpec

namespace ClusterDns

/-- The violations of an entry, after the clusters of the entries before it. -/
def errors (d : ClusterDns) (earlier : List String) (path : FieldPath) : FieldErrors :=
  if d.cluster.isEmpty then [.required (path.child "cluster") ""]
  else if earlier.contains d.cluster then [.duplicate (path.child "cluster") d.cluster]
  else []

end ClusterDns

namespace DnsRecordStatus

def errors (s : DnsRecordStatus) (path : FieldPath) : FieldErrors :=
  let entries := s.dns.getD []
  entries.zipIdx.flatMap fun (entry, i) =>
    entry.errors ((entries.take i).map (·.cluster)) ((path.child "dns").index i)

end DnsRecordStatus

end FleetRegistry
