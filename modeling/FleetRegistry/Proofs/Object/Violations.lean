import FleetRegistry.Cluster.Rules
import FleetRegistry.DnsRecord.Rules
import FleetRegistry.Proofs.Field.Places

/-!
The checks of clusters and records report exactly what is wrong. The violations at each part of an
object, and at each element of its lists, are given by what is there and by the elements in front
of it, and there are no others.
-/
namespace FleetRegistry

open FieldErrors

theorem FieldErrors.inside_child {path : FieldPath} (inner : path.text ≠ "") (name : String)
    {wrong : Prop} [Decidable wrong] {error : FieldError}
    (field : error.field = (path.child name).text) : (given wrong error).Inside path :=
  (inside_given field).below (FieldPath.child_below inner name)

theorem contains_earlier {α : Type} (value : α → String) (list : List α) (i : Nat) (text : String) :
    ((list.take i).map value).contains text = true ↔ ∃ j < i, list[j]?.map value = some text := by
  simp only [List.contains_iff_mem, List.mem_map, List.mem_take_iff_getElem, Nat.lt_min,
    Option.map_eq_some_iff, List.getElem?_eq_some_iff]
  constructor
  · rintro ⟨a, ⟨j, ⟨before, bound⟩, rfl⟩, eq⟩
    exact ⟨j, before, _, ⟨bound, rfl⟩, eq⟩
  · rintro ⟨j, before, a, ⟨bound, rfl⟩, eq⟩
    exact ⟨_, ⟨j, ⟨before, bound⟩, rfl⟩, eq⟩

/-! ## The elements of lists -/

namespace ServerEndpoint

/-- What is wrong with the endpoint at a place of a list: its range, a range in use in front of it,
an address of blanks. -/
def violations (e : ServerEndpoint) (list : List ServerEndpoint) (i : Nat) (path : FieldPath) :
    FieldErrors :=
  ((Cidr.fault? e.clientCidr.toList).toList.map fun fault =>
      .invalid (path.child "clientCIDR") e.clientCidr fault.message)
    ++ given (∃ j < i, list[j]?.map (·.clientCidr) = some e.clientCidr)
      (.duplicate (path.child "clientCIDR") e.clientCidr)
    ++ given (Text.isBlankText e.serverAddress) (.required (path.child "serverAddress") "")

variable (e : ServerEndpoint)

theorem errors_eq (list : List ServerEndpoint) (i : Nat) (path : FieldPath) :
    e.errors ((list.take i).map (·.clientCidr)) path = e.violations list i path := by
  simp only [errors, violations, given, contains_earlier]

theorem violations_inside (list : List ServerEndpoint) (i : Nat) {path : FieldPath}
    (inner : path.text ≠ "") : (e.violations list i path).Inside path := by
  have range := FieldPath.child_below inner "clientCIDR"
  exact .append (.append ((inside_map fun _ => rfl).below range)
    (inside_child inner "clientCIDR" rfl)) (inside_child inner "serverAddress" rfl)

end ServerEndpoint

namespace ClusterCondition

def timeViolations (time : Option String) (path : FieldPath) : FieldErrors :=
  time.toList.flatMap fun text =>
    given (Time.isStamp text = false) (.invalid path text "must be an RFC3339 timestamp")

/-- What is wrong with the condition at a place of a list: a type or a status that does not exist,
a type in use in front of it, times that are none. -/
def violations (c : ClusterCondition) (list : List ClusterCondition) (i : Nat)
    (path : FieldPath) : FieldErrors :=
  given (c.type ∉ supportedTypes) (.notSupported (path.child "type") c.type supportedTypes)
    ++ given (∃ j < i, list[j]?.map (·.type) = some c.type) (.duplicate (path.child "type") c.type)
    ++ given (c.status ∉ supportedStatuses)
      (.notSupported (path.child "status") c.status supportedStatuses)
    ++ timeViolations c.lastHeartbeatTime (path.child "lastHeartbeatTime")
    ++ timeViolations c.lastTransitionTime (path.child "lastTransitionTime")

variable (c : ClusterCondition)

theorem timeErrors_eq (time : Option String) (path : FieldPath) :
    timeErrors time path = timeViolations time path := by
  cases time with
  | none => rfl
  | some text => cases stamp : Time.isStamp text <;> simp [timeErrors, timeViolations, given, stamp]

theorem errors_eq (list : List ClusterCondition) (i : Nat) (path : FieldPath) :
    c.errors ((list.take i).map (·.type)) path = c.violations list i path := by
  simp only [errors, violations, given, contains_earlier, timeErrors_eq]
  simp only [List.contains_iff_mem, ite_not]

theorem violations_inside (list : List ClusterCondition) (i : Nat) {path : FieldPath}
    (inner : path.text ≠ "") : (c.violations list i path).Inside path := by
  have times (time : Option String) (name : String) :
      (timeViolations time (path.child name)).Inside path :=
    inside_flatMap fun text _ => inside_child inner name rfl
  exact .append (.append (.append (.append (inside_child inner "type" rfl)
    (inside_child inner "type" rfl)) (inside_child inner "status" rfl)) (times _ _)) (times _ _)

end ClusterCondition

namespace ClusterDns

/-- What is wrong with the entry at a place of a list: it has no cluster, or else one in use in
front of it. -/
def violations (d : ClusterDns) (list : List ClusterDns) (i : Nat) (path : FieldPath) :
    FieldErrors :=
  given (d.cluster = "") (.required (path.child "cluster") "")
    ++ given (d.cluster ≠ "" ∧ ∃ j < i, list[j]?.map (·.cluster) = some d.cluster)
      (.duplicate (path.child "cluster") d.cluster)

variable (d : ClusterDns)

theorem errors_eq (list : List ClusterDns) (i : Nat) (path : FieldPath) :
    d.errors ((list.take i).map (·.cluster)) path = d.violations list i path := by
  simp only [errors, violations, given, contains_earlier, String.isEmpty_iff]
  by_cases unnamed : d.cluster = "" <;> simp [unnamed]

theorem violations_inside (list : List ClusterDns) (i : Nat) {path : FieldPath}
    (inner : path.text ≠ "") : (d.violations list i path).Inside path :=
  .append (inside_child inner "cluster" rfl) (inside_child inner "cluster" rfl)

end ClusterDns

/-! ## Clusters and records -/

theorem AuthInfo.errors_inside (a : AuthInfo) {path : FieldPath} (inner : path.text ≠ "") :
    (a.errors path).Inside path := by
  have controller := FieldPath.child_below inner "controller"
  have inner' := path.child_text_ne "controller" (by decide)
  exact .append (inside_child inner "user" rfl)
    ((inside_child inner' "name" rfl).below controller)

namespace ClusterSpec

def endpoints (s : ClusterSpec) : List ServerEndpoint :=
  (s.kubernetesApiEndpoints.bind (·.serverEndpoints)).getD []

def bundle? (s : ClusterSpec) : Option String := s.kubernetesApiEndpoints.bind (·.caBundle)

/-- What is reported of a spec: the violations of each part at its place, and nothing else. -/
structure Reported (s : ClusterSpec) (path : FieldPath) (errors : FieldErrors) : Prop where
  parts : errors = errors.within (path.child "authInfo")
    ++ (List.range s.endpoints.length).flatMap (fun i => errors.within
      (((path.child "kubernetesApiEndpoints").child "serverEndpoints").index i))
    ++ errors.within ((path.child "kubernetesApiEndpoints").child "caBundle")
    ++ errors.within (path.child "cloudProvider")
  authInfo : errors.within (path.child "authInfo")
    = (s.authInfo.map (·.errors (path.child "authInfo"))).getD []
  endpoint : ∀ i endpoint, s.endpoints[i]? = some endpoint →
    let item := ((path.child "kubernetesApiEndpoints").child "serverEndpoints").index i
    errors.within item = endpoint.violations s.endpoints i item
  caBundle : errors.within ((path.child "kubernetesApiEndpoints").child "caBundle")
    = given (∃ bundle ∈ s.bundle?, ApiEndpoints.isBundle bundle = false)
      (.invalid ((path.child "kubernetesApiEndpoints").child "caBundle") "<redacted>"
        "must be base64 encoded")
  cloudProvider : errors.within (path.child "cloudProvider")
    = given (∃ provider ∈ s.cloudProvider, provider.name = "")
      (.required ((path.child "cloudProvider").child "name") "")

def judged (s : ClusterSpec) (path : FieldPath) : List (FieldPath × FieldErrors) :=
  let api := path.child "kubernetesApiEndpoints"
  let list := api.child "serverEndpoints"
  [(path.child "authInfo", (s.authInfo.map (·.errors (path.child "authInfo"))).getD []),
    (list, s.endpoints.zipIdx.flatMap fun entry =>
      entry.1.violations s.endpoints entry.2 (list.index entry.2)),
    (api.child "caBundle", given (∃ bundle ∈ s.bundle?, ApiEndpoints.isBundle bundle = false)
      (.invalid (api.child "caBundle") "<redacted>" "must be base64 encoded")),
    (path.child "cloudProvider", given (∃ provider ∈ s.cloudProvider, provider.name = "")
      (.required ((path.child "cloudProvider").child "name") ""))]

variable (s : ClusterSpec) (path : FieldPath)

theorem errors_eq_judged : s.errors path = (s.judged path).flatMap (·.2) := by
  have provider : (if s.cloudProvider.any (·.name.isEmpty) then
      [.required ((path.child "cloudProvider").child "name") ""] else [])
      = given (∃ provider ∈ s.cloudProvider, provider.name = "")
        (.required ((path.child "cloudProvider").child "name") "") := by
    cases s.cloudProvider <;> simp [given]
  have bundle (bundle? : Option String) (error : FieldError) :
      (if bundle?.all ApiEndpoints.isBundle then [] else [error])
        = given (∃ bundle ∈ bundle?, ApiEndpoints.isBundle bundle = false) error := by
    cases bundle? with
    | none => simp [given]
    | some bundle => cases sound : ApiEndpoints.isBundle bundle <;> simp [given, sound]
  unfold errors
  rw [provider]
  simp only [judged, List.flatMap_cons, List.flatMap_nil, List.append_nil, List.append_assoc]
  congr 1
  rw [← List.append_assoc]
  congr 1
  unfold endpoints bundle?
  cases s.kubernetesApiEndpoints with
  | none => simp [given]
  | some api =>
    simp only [Option.map_some, Option.getD_some, ApiEndpoints.errors, bundle,
      ServerEndpoint.errors_eq, Option.bind_some]

theorem judged_inside : ∀ part ∈ s.judged path, part.2.Inside part.1 := by
  have auth := path.child_text_ne "authInfo" (by decide)
  have provider := path.child_text_ne "cloudProvider" (by decide)
  simp only [judged, List.forall_mem_cons, List.not_mem_nil, false_imp_iff, implies_true, and_true]
  refine ⟨?_, ?_, inside_given rfl, inside_child provider "name" rfl⟩
  · cases s.authInfo with
    | none => exact inside_nil
    | some a => exact a.errors_inside auth
  · exact inside_elements fun entry => entry.1.violations_inside _ _ (FieldPath.index_text_ne _ _)

theorem judged_apart : (s.judged path).Pairwise fun part next => part.1.Apart next.1 := by
  have api := path.child_text_ne "kubernetesApiEndpoints" (by decide)
  have list := FieldPath.child_below api "serverEndpoints"
  have bundle := FieldPath.child_below api "caBundle"
  have auth_api : (path.child "authInfo").Apart (path.child "kubernetesApiEndpoints") :=
    path.child_apart (by decide) (by decide) (by decide)
  have auth_provider : (path.child "authInfo").Apart (path.child "cloudProvider") :=
    path.child_apart (by decide) (by decide) (by decide)
  have api_provider : (path.child "kubernetesApiEndpoints").Apart (path.child "cloudProvider") :=
    path.child_apart (by decide) (by decide) (by decide)
  have list_bundle : ((path.child "kubernetesApiEndpoints").child "serverEndpoints").Apart
      ((path.child "kubernetesApiEndpoints").child "caBundle") :=
    FieldPath.child_apart _ (by decide) (by decide) (by decide)
  simp only [judged, List.pairwise_cons, List.forall_mem_cons, List.not_mem_nil, false_imp_iff,
    implies_true, and_true, List.Pairwise.nil]
  exact ⟨⟨auth_api.above list, auth_api.above bundle, auth_provider⟩,
    ⟨list_bundle, api_provider.below list⟩, api_provider.below bundle⟩

theorem errors_inside {path : FieldPath} (inner : path.text ≠ "") :
    (s.errors path).Inside path := by
  have api := path.child_text_ne "kubernetesApiEndpoints" (by decide)
  have below : ∀ part ∈ s.judged path, part.1.Below path := by
    simp only [judged, List.forall_mem_cons, List.not_mem_nil, false_imp_iff, implies_true,
      and_true]
    have api_below := FieldPath.child_below inner "kubernetesApiEndpoints"
    exact ⟨FieldPath.child_below inner _, (FieldPath.child_below api _).trans api_below,
      (FieldPath.child_below api _).trans api_below, FieldPath.child_below inner _⟩
  rw [errors_eq_judged]
  exact inside_flatMap fun part mem => (judged_inside s path part mem).below (below part mem)

theorem reported : s.Reported path (s.errors path) := by
  have part {place : FieldPath} {violations : FieldErrors}
      (mem : (place, violations) ∈ s.judged path) : (s.errors path).within place = violations := by
    rw [errors_eq_judged]
    exact within_part (judged_inside s path) (judged_apart s path) mem
  have auth := part (.head _)
  have list := part (.tail _ (.head _))
  have bundle := part (.tail _ (.tail _ (.head _)))
  have provider := part (.tail _ (.tail _ (.tail _ (.head _))))
  have inside (entry : ServerEndpoint × Nat) :=
    entry.1.violations_inside s.endpoints entry.2 (FieldPath.index_text_ne
      ((path.child "kubernetesApiEndpoints").child "serverEndpoints") entry.2)
  have items (i : Nat) := within_below list (FieldPath.index_below _ i)
  refine ⟨?_, auth, fun i endpoint here => (items i).trans ?_, bundle, provider⟩
  · simp only [items, ← elements_eq inside]
    rw [auth, bundle, provider, errors_eq_judged]
    simp only [judged, List.flatMap_cons, List.flatMap_nil, List.append_nil, List.append_assoc]
  · rw [within_element inside, here]
    rfl

end ClusterSpec

namespace ClusterStatus

def conditionList (s : ClusterStatus) : List ClusterCondition := s.conditions.getD []

/-- What is reported of a status: the violations of each condition at its place, and nothing
else. -/
structure Reported (s : ClusterStatus) (path : FieldPath) (errors : FieldErrors) : Prop where
  parts : errors = (List.range s.conditionList.length).flatMap fun i =>
    errors.within ((path.child "conditions").index i)
  condition : ∀ i condition, s.conditionList[i]? = some condition →
    let item := (path.child "conditions").index i
    errors.within item = condition.violations s.conditionList i item

theorem reported (s : ClusterStatus) (path : FieldPath) : s.Reported path (s.errors path) := by
  have errors : s.errors path = s.conditionList.zipIdx.flatMap fun entry =>
      entry.1.violations s.conditionList entry.2 ((path.child "conditions").index entry.2) := by
    simp only [ClusterStatus.errors, ClusterCondition.errors_eq, conditionList]
  have inside (entry : ClusterCondition × Nat) :=
    entry.1.violations_inside s.conditionList entry.2
      (FieldPath.index_text_ne (path.child "conditions") entry.2)
  rw [errors]
  refine ⟨elements_eq inside, fun i condition here => (within_element inside i).trans ?_⟩
  rw [here]
  rfl

end ClusterStatus

namespace DnsRecordStatus

def entries (s : DnsRecordStatus) : List ClusterDns := s.dns.getD []

/-- What is reported of a status: the violations of each entry at its place, and nothing else. -/
structure Reported (s : DnsRecordStatus) (path : FieldPath) (errors : FieldErrors) : Prop where
  parts : errors = (List.range s.entries.length).flatMap fun i =>
    errors.within ((path.child "dns").index i)
  entry : ∀ i entry, s.entries[i]? = some entry →
    let item := (path.child "dns").index i
    errors.within item = entry.violations s.entries i item

theorem reported (s : DnsRecordStatus) (path : FieldPath) : s.Reported path (s.errors path) := by
  have errors : s.errors path = s.entries.zipIdx.flatMap fun entry =>
      entry.1.violations s.entries entry.2 ((path.child "dns").index entry.2) := by
    simp only [DnsRecordStatus.errors, ClusterDns.errors_eq, entries]
  have inside (entry : ClusterDns × Nat) := entry.1.violations_inside s.entries entry.2
    (FieldPath.index_text_ne (path.child "dns") entry.2)
  rw [errors]
  refine ⟨elements_eq inside, fun i entry here => (within_element inside i).trans ?_⟩
  rw [here]
  rfl

end DnsRecordStatus

/-- The checks of clusters and records report what is wrong, all of it, each thing at its place.
Only an entry of a record without a cluster is not compared with those in front of it. -/
theorem violations_reported (path : FieldPath) :
    (∀ s : ClusterSpec, s.Reported path (s.errors path))
      ∧ (∀ s : ClusterStatus, s.Reported path (s.errors path))
      ∧ ∀ s : DnsRecordStatus, s.Reported path (s.errors path) :=
  ⟨fun s => s.reported path, fun s => s.reported path, fun s => s.reported path⟩

/-- Two entries without a cluster: the second one uses what the first one uses, but nothing is
said of that. -/
theorem unnamed_clusters_not_compared :
    let status : DnsRecordStatus := { dns := some [{ cluster := "" }, { cluster := "" }] }
    let path := FieldPath.ofField "status"
    let item := (path.child "dns").index 1
    (∃ j < 1, status.entries[j]?.map (·.cluster) = some "")
      ∧ FieldError.duplicate (item.child "cluster") "" ∉ status.errors path
      ∧ (status.errors path).within item = [.required (item.child "cluster") ""] := by
  decide +kernel

end FleetRegistry
