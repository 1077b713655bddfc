import FleetRegistry.Cluster.Basic
import FleetRegistry.Collection.StringSet
import FleetRegistry.Field.Error
import FleetRegistry.Name.Cidr
import FleetRegistry.Text.Base64
import FleetRegistry.Text.Blank
import FleetRegistry.Time.Stamp

/-!
Rules for clusters. Each list element is judged by itself and by the elements before it: a value
that must be unique is a duplicate wherever it occurred earlier in the list.
-/
namespace FleetRegistry

namespace ServerEndpoint

/-- The violations of an endpoint, after the ranges of the endpoints before it. -/
def errors (e : ServerEndpoint) (earlier : List String) (path : FieldPath) : FieldErrors :=
  ((Cidr.fault? e.clientCidr.toList).toList.map fun fault =>
      .invalid (path.child "clientCIDR") e.clientCidr fault.message)
    ++ (if earlier.contains e.clientCidr then
        [.duplicate (path.child "clientCIDR") e.clientCidr] else [])
    ++ if Text.isBlankText e.serverAddress then [.required (path.child "serverAddress") ""] else []

end ServerEndpoint

namespace ApiEndpoints

/-- Whether a text is the written form of some bytes. -/
def isBundle (text : String) : Bool :=
  (Text.Base64.standard.decode text.toUTF8.toList).isOk

/-- The violations of the endpoints of a cluster. The bundle itself is not shown. -/
def errors (e : ApiEndpoints) (path : FieldPath) : FieldErrors :=
  let endpoints := e.serverEndpoints.getD []
  endpoints.zipIdx.flatMap (fun (endpoint, i) =>
      endpoint.errors ((endpoints.take i).map (·.clientCidr))
        ((path.child "serverEndpoints").index i))
    ++ if e.caBundle.all isBundle then []
      else [.invalid (path.child "caBundle") "<redacted>" "must be base64 encoded"]

end ApiEndpoints

namespace AuthInfo

/-- Users are refused, and a controller needs a name. -/
def errors (a : AuthInfo) (path : FieldPath) : FieldErrors :=
  (if a.user.isSome then
      [.forbidden (path.child "user") "user is deprecated and must not be set"] else [])
    ++ if a.controller.any (·.name.isEmpty) then
        [.required ((path.child "controller").child "name") ""] else []

end AuthInfo

namespace ClusterSpec

def errors (s : ClusterSpec) (path : FieldPath) : FieldErrors :=
  (s.authInfo.map (·.errors (path.child "authInfo"))).getD []
    ++ (s.kubernetesApiEndpoints.map (·.errors (path.child "kubernetesApiEndpoints"))).getD []
    ++ if s.cloudProvider.any (·.name.isEmpty) then
        [.required ((path.child "cloudProvider").child "name") ""] else []

end ClusterSpec

namespace ClusterCondition

def supportedTypes : List String := ["Ok", "Offline"]

def supportedStatuses : List String := ["True", "False", "Unknown"]

def timeErrors (time : Option String) (path : FieldPath) : FieldErrors :=
  match time with
  | none => []
  | some text =>
    if Time.isStamp text then [] else [.invalid path text "must be an RFC3339 timestamp"]

/-- The violations of a condition, after the types of the conditions before it. -/
def errors (c : ClusterCondition) (earlier : List String) (path : FieldPath) : FieldErrors :=
  (if supportedTypes.contains c.type then []
      else [.notSupported (path.child "type") c.type supportedTypes])
    ++ (if earlier.contains c.type then [.duplicate (path.child "type") c.type] else [])
    ++ (if supportedStatuses.contains c.status then []
        else [.notSupported (path.child "status") c.status supportedStatuses])
    ++ timeErrors c.lastHeartbeatTime (path.child "lastHeartbeatTime")
    ++ timeErrors c.lastTransitionTime (path.child "lastTransitionTime")

end ClusterCondition

namespace ClusterStatus

def errors (s : ClusterStatus) (path : FieldPath) : FieldErrors :=
  let conditions := s.conditions.getD []
  conditions.zipIdx.flatMap fun (condition, i) =>
    condition.errors ((conditions.take i).map (·.type)) ((path.child "conditions").index i)

/-- The status with its zones in ascending order, each zone once. -/
def canonical (s : ClusterStatus) : ClusterStatus :=
  { s with zones := s.zones.map fun zones => (StringSet.ofList zones).elements }

end ClusterStatus

end FleetRegistry
