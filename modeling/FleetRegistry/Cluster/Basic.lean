import FleetRegistry.Json.Decode

/-!
Member clusters: how to reach the interface of each, which credentials controllers use, who hosts
it, and what was last observed of it.
-/
namespace FleetRegistry

/-- The address to use for clients in a range of addresses. -/
structure ServerEndpoint where
  clientCidr : String
  serverAddress : String
  deriving DecidableEq, Inhabited

/-- The interface of a cluster: addresses, and the authority that vouches for them. -/
structure ApiEndpoints where
  serverEndpoints : Option (List ServerEndpoint) := none
  caBundle : Option String := none
  deriving DecidableEq, Inhabited

/-- An object that holds credentials. -/
structure CredentialsReference where
  kind : Option String := none
  name : String
  ns : Option String := none
  deriving DecidableEq, Inhabited

structure AuthInfo where
  user : Option CredentialsReference := none
  controller : Option CredentialsReference := none
  deriving DecidableEq, Inhabited

structure CloudProvider where
  name : String
  deriving DecidableEq, Inhabited

structure ClusterSpec where
  kubernetesApiEndpoints : Option ApiEndpoints := none
  authInfo : Option AuthInfo := none
  cloudProvider : Option CloudProvider := none
  deriving DecidableEq, Inhabited

structure ClusterCondition where
  type : String
  status : String
  lastHeartbeatTime : Option String := none
  lastTransitionTime : Option String := none
  reason : Option String := none
  message : Option String := none
  deriving DecidableEq, Inhabited

structure ClusterStatus where
  conditions : Option (List ClusterCondition) := none
  zones : Option (List String) := none
  region : Option String := none
  deriving DecidableEq, Inhabited

namespace ServerEndpoint

def toJson (e : ServerEndpoint) : Json := .ofFields [
  ("clientCIDR", some (.str e.clientCidr)),
  ("serverAddress", some (.str e.serverAddress))]

def ofJson? (value : Json) : Option ServerEndpoint := do
  let m ← value.record? ["clientCIDR", "serverAddress"]
  return {
    clientCidr := ← Json.requiredField Json.text? "clientCIDR" m
    serverAddress := ← Json.requiredField Json.text? "serverAddress" m }

end ServerEndpoint

namespace ApiEndpoints

def toJson (e : ApiEndpoints) : Json := .ofFields [
  ("serverEndpoints", e.serverEndpoints.map fun es => .arr (es.map ServerEndpoint.toJson)),
  ("caBundle", e.caBundle.map .str)]

def ofJson? (value : Json) : Option ApiEndpoints := do
  let m ← value.record? ["serverEndpoints", "caBundle"]
  return {
    serverEndpoints := ← Json.optionalField (Json.list? ServerEndpoint.ofJson?) "serverEndpoints" m
    caBundle := ← Json.optionalField Json.text? "caBundle" m }

end ApiEndpoints

namespace CredentialsReference

def toJson (r : CredentialsReference) : Json := .ofFields [
  ("kind", r.kind.map .str),
  ("name", some (.str r.name)),
  ("namespace", r.ns.map .str)]

def ofJson? (value : Json) : Option CredentialsReference := do
  let m ← value.record? ["kind", "name", "namespace"]
  return {
    kind := ← Json.optionalField Json.text? "kind" m
    name := ← Json.requiredField Json.text? "name" m
    ns := ← Json.optionalField Json.text? "namespace" m }

end CredentialsReference

namespace AuthInfo

def toJson (a : AuthInfo) : Json := .ofFields [
  ("user", a.user.map CredentialsReference.toJson),
  ("controller", a.controller.map CredentialsReference.toJson)]

def ofJson? (value : Json) : Option AuthInfo := do
  let m ← value.record? ["user", "controller"]
  return {
    user := ← Json.optionalField CredentialsReference.ofJson? "user" m
    controller := ← Json.optionalField CredentialsReference.ofJson? "controller" m }

end AuthInfo

namespace CloudProvider

def toJson (p : CloudProvider) : Json := .ofFields [("name", some (.str p.name))]

def ofJson? (value : Json) : Option CloudProvider := do
  let m ← value.record? ["name"]
  return { name := ← Json.requiredField Json.text? "name" m }

end CloudProvider

namespace ClusterSpec

def toJson (s : ClusterSpec) : Json := .ofFields [
  ("kubernetesApiEndpoints", s.kubernetesApiEndpoints.map ApiEndpoints.toJson),
  ("authInfo", s.authInfo.map AuthInfo.toJson),
  ("cloudProvider", s.cloudProvider.map CloudProvider.toJson)]

def ofJson? (value : Json) : Option ClusterSpec := do
  let m ← value.record? ["kubernetesApiEndpoints", "authInfo", "cloudProvider"]
  return {
    kubernetesApiEndpoints := ← Json.optionalField ApiEndpoints.ofJson? "kubernetesApiEndpoints" m
    authInfo := ← Json.optionalField AuthInfo.ofJson? "authInfo" m
    cloudProvider := ← Json.optionalField CloudProvider.ofJson? "cloudProvider" m }

end ClusterSpec

namespace ClusterCondition

def toJson (c : ClusterCondition) : Json := .ofFields [
  ("type", some (.str c.type)),
  ("status", some (.str c.status)),
  ("lastHeartbeatTime", c.lastHeartbeatTime.map .str),
  ("lastTransitionTime", c.lastTransitionTime.map .str),
  ("reason", c.reason.map .str),
  ("message", c.message.map .str)]

def ofJson? (value : Json) : Option ClusterCondition := do
  let m ← value.record?
    ["type", "status", "lastHeartbeatTime", "lastTransitionTime", "reason", "message"]
  return {
    type := ← Json.requiredField Json.text? "type" m
    status := ← Json.requiredField Json.text? "status" m
    lastHeartbeatTime := ← Json.optionalField Json.text? "lastHeartbeatTime" m
    lastTransitionTime := ← Json.optionalField Json.text? "lastTransitionTime" m
    reason := ← Json.optionalField Json.text? "reason" m
    message := ← Json.optionalField Json.text? "message" m }

end ClusterCondition

namespace ClusterStatus

def toJson (s : ClusterStatus) : Json := .ofFields [
  ("conditions", s.conditions.map fun cs => .arr (cs.map ClusterCondition.toJson)),
  ("zones", s.zones.map .ofStrings),
  ("region", s.region.map .str)]

def ofJson? (value : Json) : Option ClusterStatus := do
  let m ← value.record? ["conditions", "zones", "region"]
  return {
    conditions := ← Json.optionalField (Json.list? ClusterCondition.ofJson?) "conditions" m
    zones := ← Json.optionalField (Json.list? Json.text?) "zones" m
    region := ← Json.optionalField Json.text? "region" m }

end ClusterStatus

end FleetRegistry
