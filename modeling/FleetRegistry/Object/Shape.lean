import FleetRegistry.Object.Basic
import FleetRegistry.Yaml.Shape

/-!
The shapes of objects in YAML, and reading an object from a YAML text.
-/
namespace FleetRegistry

open Yaml Yaml.Shape

namespace OwnerReference

def shape : Shape := .record true [
  optional "apiVersion" .text,
  optional "blockOwnerDeletion" .bool,
  optional "controller" .bool,
  optional "kind" .text,
  optional "name" .text,
  optional "uid" .text]

end OwnerReference

namespace ManagedFields

def shape : Shape := .record true [
  optional "apiVersion" .text,
  optional "fieldsType" .text,
  optional "fieldsV1" .any,
  optional "manager" .text,
  optional "operation" .text,
  optional "subresource" .text,
  optional "time" .text]

end ManagedFields

namespace ObjectMeta

def shape : Shape := .record true [
  optional "annotations" .texts,
  optional "creationTimestamp" .text,
  optional "deletionGracePeriodSeconds" .int,
  optional "deletionTimestamp" .text,
  optional "finalizers" (.list .text),
  optional "generateName" .text,
  optional "generation" .int,
  optional "labels" .texts,
  optional "managedFields" (.list ManagedFields.shape),
  optional "name" .text,
  optional "namespace" .text,
  optional "ownerReferences" (.list OwnerReference.shape),
  optional "resourceVersion" .text,
  optional "selfLink" .text,
  optional "uid" .text]

end ObjectMeta

namespace CredentialsReference

def shape : Shape :=
  .record false [optional "kind" .text, required "name" .text, optional "namespace" .text]

end CredentialsReference

namespace ClusterSpec

def shape : Shape := .record false [
  optional "kubernetesApiEndpoints" (.record false [
    optional "serverEndpoints" (.list (.record false [
      required "clientCIDR" .text,
      required "serverAddress" .text])),
    optional "caBundle" .text]),
  optional "authInfo" (.record false [
    optional "user" CredentialsReference.shape,
    optional "controller" CredentialsReference.shape]),
  optional "cloudProvider" (.record false [required "name" .text])]

end ClusterSpec

namespace ClusterStatus

def shape : Shape := .record false [
  optional "conditions" (.list (.record false [
    required "type" .text,
    required "status" .text,
    optional "lastHeartbeatTime" .text,
    optional "lastTransitionTime" .text,
    optional "reason" .text,
    optional "message" .text])),
  optional "zones" (.list .text),
  optional "region" .text]

end ClusterStatus

namespace LoadBalancerStatus

def shape : Shape := .record true [
  optional "ingress" (.list (.record true [
    optional "hostname" .text,
    optional "ip" .text,
    optional "ipMode" .text,
    optional "ports" (.list (.record true [
      optional "error" .text,
      optional "port" .int,
      optional "protocol" .text]))]))]

end LoadBalancerStatus

namespace DnsRecordSpec

def shape : Shape := .record false [
  required "federationName" .text,
  optional "dnsSuffix" .text,
  optional "recordTTL" .int]

end DnsRecordSpec

namespace DnsRecordStatus

def shape : Shape := .record false [
  optional "dns" (.list (.record false [
    required "cluster" .text,
    optional "zones" (.list .text),
    optional "region" .text,
    optional "loadBalancer" LoadBalancerStatus.shape]))]

end DnsRecordStatus

namespace Kind

def specShape : Kind → Shape
  | cluster => ClusterSpec.shape
  | dnsRecord => DnsRecordSpec.shape

def statusShape : Kind → Shape
  | cluster => ClusterStatus.shape
  | dnsRecord => DnsRecordStatus.shape

end Kind

namespace Object

def shape (k : Kind) : Shape := .record false [
  required "metadata" ObjectMeta.shape,
  required "spec" k.specShape,
  optional "status" k.statusShape]

def ofYaml? (k : Kind) (text : String) : Option (Object k) :=
  (shapedJson? (shape k) text).bind (ofJson? k)

end Object

end FleetRegistry
