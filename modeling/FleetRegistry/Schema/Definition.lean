import FleetRegistry.Object.Kind
import FleetRegistry.Schema.Basic

/-!
The published definition of each kind: its names and scope, and the schema of its objects.
-/
namespace FleetRegistry.Schema

/-- A description that may be null. -/
def maybe (description : String) : SchemaNote := ⟨some description, true⟩

/-- A description of a value that is always there. -/
def always (description : String) : SchemaNote := ⟨some description, false⟩

def plainText (note : SchemaNote) : Schema := .text note none none

def wordEnds : Pattern := .oneOf [⟨'a', 'z'⟩, ⟨'0', '9'⟩]

def wordChars : Pattern := .oneOf [⟨'-', '-'⟩, ⟨'a', 'z'⟩, ⟨'0', '9'⟩]

def labelPattern : Pattern :=
  .followedBy wordEnds (.optional (.followedBy (.repeated wordChars) wordEnds))

/-- Labels between dots, and perhaps a dot at the end. -/
def suffixPattern : Pattern :=
  .followedBy labelPattern
    (.followedBy (.repeated (.followedBy (.char '.') labelPattern)) (.optional (.char '.')))

def credentials (description : String) : Schema :=
  .record (maybe description) [
    ("kind", plainText (maybe "Kind of the referenced object (e.g. `Secret`).")),
    ("name", plainText (always "Name of the referenced object.")),
    ("namespace", plainText (maybe "Namespace of the referenced object."))] ["name"]

def serverEndpoint : Schema :=
  .record (always ("Server address reachable from clients in a given network range.\n\n"
      ++ "A client picks the entry whose `clientCIDR` most specifically matches its\n"
      ++ "own address.")) [
    ("clientCIDR", plainText (always
      "CIDR of the clients that should use `serverAddress` (e.g. `0.0.0.0/0`).")),
    ("serverAddress",
      .text (always "Address of the API server, `host` or `host:port`.") (some 1) none)]
    ["clientCIDR", "serverAddress"]

def clusterSpec : Schema :=
  .record (always ("`Cluster` describes a Kubernetes cluster registered with the registry.\n\n"
      ++ "# Example YAML\n\n```yaml\napiVersion: clusterregistry.k8s.io/v1alpha1\nkind: Cluster\n"
      ++ "metadata:\n  name: cluster-s\n  labels:\n    env: prod\nspec:\n"
      ++ "  kubernetesApiEndpoints:\n    serverEndpoints:\n      - clientCIDR: 0.0.0.0/0\n"
      ++ "        serverAddress: 10.0.0.1:6443\n  authInfo:\n    controller:\n"
      ++ "      kind: Secret\n      name: cluster-s-credentials\n"
      ++ "      namespace: registry-system\n```")) [
    ("authInfo", .record (maybe "Authentication information for the cluster.") [
      ("controller", credentials "Credentials used by controllers acting on the cluster."),
      ("user", credentials "Deprecated per-user credentials. Must not be set.")] []),
    ("cloudProvider", .record (maybe "Cloud provider hosting the cluster.") [
      ("name", plainText (always "Provider name (e.g. `gce`, `aws`, `openstack`)."))] ["name"]),
    ("kubernetesApiEndpoints",
      .record (maybe "Endpoints of the cluster's Kubernetes API server.") [
        ("caBundle", plainText (maybe
          "Base64-encoded PEM bundle of the API server's certificate authority.")),
        ("serverEndpoints",
          .list (maybe "Server addresses keyed by client CIDR.") serverEndpoint)] [])] []

def clusterCondition : Schema :=
  .record (always "Observed condition of a cluster.") [
    ("lastHeartbeatTime",
      plainText (maybe "Last time the condition was probed (RFC3339 format).")),
    ("lastTransitionTime", plainText (maybe
      "Last time the condition transitioned from one status to another (RFC3339 format).")),
    ("message",
      plainText (maybe "Human-readable message indicating details about the transition.")),
    ("reason",
      plainText (maybe "Brief CamelCase reason for the condition's last transition.")),
    ("status", plainText (always "Status of the condition: True, False, or Unknown.")),
    ("type", plainText (always "Condition type: `Ok` or `Offline`."))] ["status", "type"]

def clusterStatus : Schema :=
  .record (maybe "`Cluster` status") [
    ("conditions", .list ⟨none, true⟩ clusterCondition),
    ("region", plainText (maybe "Failure-domain region the cluster runs in.")),
    ("zones", .list (maybe "Failure-domain zones the cluster's nodes run in.")
      (plainText {}))] []

def dnsRecordSpec : Schema :=
  .record (always ("`MultiClusterServiceDNSRecord` publishes a federated service in DNS.\n\n"
      ++ "The object's name is the name of the service it publishes.\n\n"
      ++ "# Example YAML\n\n```yaml\napiVersion: multiclusterdns.federation.k8s.io/v1alpha1\n"
      ++ "kind: MultiClusterServiceDNSRecord\nmetadata:\n  name: nginx\n  namespace: web\n"
      ++ "spec:\n  federationName: galactic\n  dnsSuffix: example.com\n  recordTTL: 300\n```")) [
    ("dnsSuffix", .text (maybe
      "Suffix appended to generated DNS names (e.g. `example.com`). A\ntrailing dot is allowed.")
      none (some suffixPattern)),
    ("federationName",
      .text (always "Name of the federation the service belongs to.") (some 1) none),
    ("recordTTL", .integer (maybe "TTL in seconds for the published records.") "int64"
      (some 0) (some 2147483647))] ["federationName"]

def portStatus : Schema :=
  .record (always "PortStatus represents the error condition of a service port") [
    ("error", plainText (always ("Error is to record the problem with the service port The format "
      ++ "of the error shall comply with the following rules: - built-in error values shall be "
      ++ "specified in this file and those shall use\n  CamelCase names\n- cloud provider "
      ++ "specific error values must have names that comply with the\n  format "
      ++ "foo.example.com/CamelCase."))),
    ("port", .integer (always
      "Port is the port number of the service port of which status is recorded here")
      "int32" none none),
    ("protocol", plainText (always ("Protocol is the protocol of the service port of which status "
      ++ "is recorded here The supported values are: \"TCP\", \"UDP\", \"SCTP\"")))]
    ["port", "protocol"]

def loadBalancerIngress : Schema :=
  .record (always ("LoadBalancerIngress represents the status of a load-balancer ingress point: "
      ++ "traffic intended for the service should be sent to an ingress point.")) [
    ("hostname", plainText (always ("Hostname is set for load-balancer ingress points that are DNS "
      ++ "based (typically AWS load-balancers)"))),
    ("ip", plainText (always ("IP is set for load-balancer ingress points that are IP based "
      ++ "(typically GCE or OpenStack load-balancers)"))),
    ("ipMode", plainText (always ("IPMode specifies how the load-balancer IP behaves, and may only "
      ++ "be specified when the ip field is specified. Setting this to \"VIP\" indicates that "
      ++ "traffic is delivered to the node with the destination set to the load-balancer's IP and "
      ++ "port. Setting this to \"Proxy\" indicates that traffic is delivered to the node or pod "
      ++ "with the destination set to the node's IP and node port or the pod's IP and port. "
      ++ "Service implementations may use this information to adjust traffic routing."))),
    ("ports", .list (always ("Ports is a list of records of service ports If used, every port "
      ++ "defined in the service should have an entry in it")) portStatus)] []

def clusterDns : Schema :=
  .record (always "DNS publication data for one member cluster of a federated service.") [
    ("cluster", plainText (always "Name of the member cluster.")),
    ("loadBalancer",
      .record (maybe "Load balancer ingress points of the service in this cluster.") [
        ("ingress", .list (always ("Ingress is a list containing ingress points for the "
          ++ "load-balancer. Traffic intended for the service should be sent to these ingress "
          ++ "points.")) loadBalancerIngress)] []),
    ("region", plainText (maybe "Region of the cluster.")),
    ("zones", .list (maybe "Zones of the cluster's nodes.") (plainText {}))] ["cluster"]

def dnsRecordStatus : Schema :=
  .record (maybe "`MultiClusterServiceDNSRecord` status") [
    ("dns", .list ⟨none, true⟩ clusterDns)] []

def ofSpec : Kind → Schema
  | .cluster => clusterSpec
  | .dnsRecord => dnsRecordSpec

def ofStatus : Kind → Schema
  | .cluster => clusterStatus
  | .dnsRecord => dnsRecordStatus

def kindDescription : Kind → String
  | .cluster => "Cluster contains information about a Kubernetes cluster: how to reach its API "
      ++ "server, which credentials controllers use for it, and its observed health."
  | .dnsRecord => "MultiClusterServiceDNSRecord describes the DNS records published for a service "
      ++ "federated across member clusters."

def objectJson (k : Kind) : Json := .obj [
  ("description", .str (kindDescription k)),
  ("properties", .obj [("spec", (ofSpec k).toJson), ("status", (ofStatus k).toJson)]),
  ("required", .arr [.str "spec"]),
  ("title", .str k.name),
  ("type", .str "object")]

/-- The name of one object of a kind. -/
def singular (k : Kind) : String := String.ofList (k.name.toList.map Char.toLower)

/-- The definition of a kind, as it is published. -/
def definition (k : Kind) : Json := .obj [
  ("apiVersion", .str "apiextensions.k8s.io/v1"),
  ("kind", .str "CustomResourceDefinition"),
  ("metadata", .obj [("name", .str k.qualified)]),
  ("spec", .obj [
    ("group", .str k.group),
    ("names", .obj [
      ("categories", .arr []),
      ("kind", .str k.name),
      ("plural", .str k.plural),
      ("shortNames", .arr []),
      ("singular", .str (singular k))]),
    ("scope", .str (if k.namespaced then "Namespaced" else "Cluster")),
    ("versions", .arr [.obj [
      ("additionalPrinterColumns", .arr []),
      ("name", .str k.version),
      ("schema", .obj [("openAPIV3Schema", objectJson k)]),
      ("served", .bool true),
      ("storage", .bool true),
      ("subresources", .obj [("status", .obj [])])]])])]

end FleetRegistry.Schema
