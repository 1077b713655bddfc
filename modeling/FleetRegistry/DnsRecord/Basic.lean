import FleetRegistry.Json.Decode

/-!
Records of a service that is federated across clusters: the federation and domain it is published
in, and where each member cluster serves it.
-/
namespace FleetRegistry

/-- One port of a load balancer. -/
structure PortStatus where
  error : Option String := none
  port : Int32
  protocol : String
  deriving DecidableEq

/-- One point where traffic enters a load balancer. -/
structure LoadBalancerIngress where
  hostname : Option String := none
  ip : Option String := none
  ipMode : Option String := none
  ports : Option (List PortStatus) := none
  deriving DecidableEq, Inhabited

structure LoadBalancerStatus where
  ingress : Option (List LoadBalancerIngress) := none
  deriving DecidableEq, Inhabited

/-- How one member cluster serves the service. -/
structure ClusterDns where
  cluster : String
  zones : Option (List String) := none
  region : Option String := none
  loadBalancer : Option LoadBalancerStatus := none
  deriving DecidableEq, Inhabited

structure DnsRecordSpec where
  federationName : String
  dnsSuffix : Option String := none
  recordTtl : Option Int64 := none
  deriving DecidableEq, Inhabited

structure DnsRecordStatus where
  dns : Option (List ClusterDns) := none
  deriving DecidableEq, Inhabited

namespace PortStatus

def toJson (p : PortStatus) : Json := .ofFields [
  ("error", p.error.map .str),
  ("port", some (.ofInt32 p.port)),
  ("protocol", some (.str p.protocol))]

def ofJson? (value : Json) : Option PortStatus := do
  let m ← value.members?
  return {
    error := ← Json.optionalField Json.text? "error" m
    port := ← Json.defaultedField 0 Json.int32? "port" m
    protocol := ← Json.defaultedField "" Json.text? "protocol" m }

end PortStatus

namespace LoadBalancerIngress

def toJson (i : LoadBalancerIngress) : Json := .ofFields [
  ("hostname", i.hostname.map .str),
  ("ip", i.ip.map .str),
  ("ipMode", i.ipMode.map .str),
  ("ports", i.ports.map fun ps => .arr (ps.map PortStatus.toJson))]

def ofJson? (value : Json) : Option LoadBalancerIngress := do
  let m ← value.members?
  return {
    hostname := ← Json.optionalField Json.text? "hostname" m
    ip := ← Json.optionalField Json.text? "ip" m
    ipMode := ← Json.optionalField Json.text? "ipMode" m
    ports := ← Json.optionalField (Json.list? PortStatus.ofJson?) "ports" m }

end LoadBalancerIngress

namespace LoadBalancerStatus

def toJson (s : LoadBalancerStatus) : Json := .ofFields [
  ("ingress", s.ingress.map fun is => .arr (is.map LoadBalancerIngress.toJson))]

def ofJson? (value : Json) : Option LoadBalancerStatus := do
  let m ← value.members?
  return { ingress := ← Json.optionalField (Json.list? LoadBalancerIngress.ofJson?) "ingress" m }

end LoadBalancerStatus

namespace ClusterDns

def toJson (d : ClusterDns) : Json := .ofFields [
  ("cluster", some (.str d.cluster)),
  ("zones", d.zones.map .ofStrings),
  ("region", d.region.map .str),
  ("loadBalancer", d.loadBalancer.map LoadBalancerStatus.toJson)]

def ofJson? (value : Json) : Option ClusterDns := do
  let m ← value.record? ["cluster", "zones", "region", "loadBalancer"]
  return {
    cluster := ← Json.requiredField Json.text? "cluster" m
    zones := ← Json.optionalField (Json.list? Json.text?) "zones" m
    region := ← Json.optionalField Json.text? "region" m
    loadBalancer := ← Json.optionalField LoadBalancerStatus.ofJson? "loadBalancer" m }

end ClusterDns

namespace DnsRecordSpec

def toJson (s : DnsRecordSpec) : Json := .ofFields [
  ("federationName", some (.str s.federationName)),
  ("dnsSuffix", s.dnsSuffix.map .str),
  ("recordTTL", s.recordTtl.map .ofInt64)]

def ofJson? (value : Json) : Option DnsRecordSpec := do
  let m ← value.record? ["federationName", "dnsSuffix", "recordTTL"]
  return {
    federationName := ← Json.requiredField Json.text? "federationName" m
    dnsSuffix := ← Json.optionalField Json.text? "dnsSuffix" m
    recordTtl := ← Json.optionalField Json.int64? "recordTTL" m }

end DnsRecordSpec

namespace DnsRecordStatus

def toJson (s : DnsRecordStatus) : Json := .ofFields [
  ("dns", s.dns.map fun ds => .arr (ds.map ClusterDns.toJson))]

def ofJson? (value : Json) : Option DnsRecordStatus := do
  let m ← value.record? ["dns"]
  return { dns := ← Json.optionalField (Json.list? ClusterDns.ofJson?) "dns" m }

end DnsRecordStatus

end FleetRegistry
