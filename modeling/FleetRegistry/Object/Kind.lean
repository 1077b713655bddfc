import FleetRegistry.Cluster.Rules
import FleetRegistry.DnsRecord.Rules
import FleetRegistry.Object.Rules

/-!
The kinds of objects that the registry serves. Everything that differs between kinds is a function
of the kind: names, scope, the types of the declared and the observed side, their written form and
their rules.
-/
namespace FleetRegistry

inductive Kind where
  | cluster
  | dnsRecord
  deriving DecidableEq, Repr

namespace Kind

def name : Kind → String
  | cluster => "Cluster"
  | dnsRecord => "MultiClusterServiceDNSRecord"

def group : Kind → String
  | cluster => "clusterregistry.k8s.io"
  | dnsRecord => "multiclusterdns.federation.k8s.io"

def version (_ : Kind) : String := "v1alpha1"

def plural : Kind → String
  | cluster => "clusters"
  | dnsRecord => "multiclusterservicednsrecords"

def apiVersion (k : Kind) : String := k.group ++ "/" ++ k.version

/-- The name of a kind's collection within all groups. -/
def qualified (k : Kind) : String := k.plural ++ "." ++ k.group

def namespaced : Kind → Bool
  | cluster => false
  | dnsRecord => true

/-- Lists whose elements are told apart by one of their fields: the field of the list and that of
its elements. -/
def mergeKeys : Kind → List (String × String)
  | cluster => [("serverEndpoints", "clientCIDR"), ("conditions", "type")]
  | dnsRecord => [("dns", "cluster")]

def nameCheck : Kind → ObjectMeta.NameCheck
  | cluster => Name.subdomainFaults
  | dnsRecord => Name.labelFaults

abbrev Spec : Kind → Type
  | cluster => ClusterSpec
  | dnsRecord => DnsRecordSpec

abbrev Status : Kind → Type
  | cluster => ClusterStatus
  | dnsRecord => DnsRecordStatus

instance (k : Kind) : DecidableEq k.Spec :=
  match k with
  | cluster => inferInstanceAs (DecidableEq ClusterSpec)
  | dnsRecord => inferInstanceAs (DecidableEq DnsRecordSpec)

instance (k : Kind) : DecidableEq k.Status :=
  match k with
  | cluster => inferInstanceAs (DecidableEq ClusterStatus)
  | dnsRecord => inferInstanceAs (DecidableEq DnsRecordStatus)

/-- The declared side of an object about which nothing is known. -/
def emptySpec : (k : Kind) → k.Spec
  | cluster => {}
  | dnsRecord => { federationName := "" }

def specToJson : (k : Kind) → k.Spec → Json
  | cluster => ClusterSpec.toJson
  | dnsRecord => DnsRecordSpec.toJson

def specOfJson? : (k : Kind) → Json → Option k.Spec
  | cluster => ClusterSpec.ofJson?
  | dnsRecord => DnsRecordSpec.ofJson?

def statusToJson : (k : Kind) → k.Status → Json
  | cluster => ClusterStatus.toJson
  | dnsRecord => DnsRecordStatus.toJson

def statusOfJson? : (k : Kind) → Json → Option k.Status
  | cluster => ClusterStatus.ofJson?
  | dnsRecord => DnsRecordStatus.ofJson?

def specErrors : (k : Kind) → k.Spec → FieldPath → FieldErrors
  | cluster => ClusterSpec.errors
  | dnsRecord => DnsRecordSpec.errors

def statusErrors : (k : Kind) → k.Status → FieldPath → FieldErrors
  | cluster => ClusterStatus.errors
  | dnsRecord => DnsRecordStatus.errors

/-- The observed side in the form in which it is kept. -/
def canonicalStatus : (k : Kind) → k.Status → k.Status
  | cluster => ClusterStatus.canonical
  | dnsRecord => id

end Kind

end FleetRegistry
