import FleetRegistry.Proofs.StandIn.Concurrence

/-!
The registry and its stand-in agree: given the same calls from the beginning, both have the same
verdict on each of them and show the same content in the same order.
-/
namespace FleetRegistry.StandIn

variable {k : Kind} {n : Nat}

/-! ## Runs -/

/-- A call that is made on both sides: by a client of the stand-in, and to the registry in a
namespace, each with what it finds around it. -/
structure PairedCall (k : Kind) extends ClientCall k where
  registryAmbient : Ambient
  space : Option String

/-- A registry and a stand-in, and the call that both get next. -/
structure Moment (k : Kind) where
  registry : Registry k
  standIn : StandIn
  next : PairedCall k

namespace Moment

def ofRegistry (m : Moment k) : Outcome (Answer k (Watch k)) × Registry k :=
  m.registry.serve m.next.registryAmbient m.next.space m.next.call

def ofStandIn (m : Moment k) : Outcome (Answer k (Watch k)) × StandIn :=
  m.standIn.serve m.next.ambient m.next.ns m.next.call

def Agree (m : Moment k) : Prop := StandIn.Agree m.ofRegistry.1 m.ofStandIn.1

def Overruns (m : Moment k) : Prop := StandIn.Overruns m.registry.store m.next.call

end Moment

def moments (r : Registry k) (t : StandIn) : List (PairedCall k) → List (Moment k)
  | [] => []
  | c :: rest =>
    let m : Moment k := ⟨r, t, c⟩
    m :: moments m.ofRegistry.2 m.ofStandIn.2 rest

/-- A registry and a stand-in without reactors, with the same content after so many calls. -/
structure Matched (n : Nat) (r : Registry k) (t : StandIn) : Prop where
  policy : r.policy = {}
  reactors : t.reactors = []
  twins : r.store.Twins n (t.store k)

theorem serve_of_no_reactors {t : StandIn} (none : t.reactors = []) (ambient : Ambient)
    (ns : String) (call : Call k) :
    (t.serve ambient ns call).1 = (perform ambient (boundTo k ns) call (t.store k)).1
      ∧ (t.serve ambient ns call).2.store k
        = (perform ambient (boundTo k ns) call (t.store k)).2
      ∧ (t.serve ambient ns call).2.reactors = [] := by
  obtain ⟨config, clusters, records, actions, reactors⟩ := t
  obtain rfl : reactors = [] := none
  cases k <;> exact ⟨rfl, rfl, rfl⟩

variable {r : Registry k} {t : StandIn} {c : PairedCall k}

theorem Matched.agree_iff (h : Matched n r t) (same : SameNamespace k c.space c.ns)
    (shared : c.call.Shared c.ns) :
    (Moment.mk r t c).Agree ↔ ¬ (Moment.mk r t c).Overruns := by
  have ⟨answered, _⟩ := serve_of_no_reactors h.reactors c.ambient c.ns c.call
  unfold Moment.Agree Moment.ofRegistry Moment.ofStandIn Registry.serve
  dsimp only
  rw [answered, h.policy]
  refine ⟨fun agree overrun => ?_, fun fits => ?_⟩
  · exact not_agree_of_overruns h.twins same shared overrun agree
  · exact (perform_concur h.twins same shared fits).agree

theorem Matched.next (h : Matched n r t) (same : SameNamespace k c.space c.ns)
    (shared : c.call.Shared c.ns) (fits : ¬ (Moment.mk r t c).Overruns) :
    Matched (n + 1) (Moment.mk r t c).ofRegistry.2 (Moment.mk r t c).ofStandIn.2 := by
  have ⟨_, left, still⟩ := serve_of_no_reactors h.reactors c.ambient c.ns c.call
  refine ⟨h.policy, still, ?_⟩
  unfold Moment.ofRegistry Moment.ofStandIn Registry.serve
  dsimp only
  rw [left, h.policy]
  exact perform_twins h.twins same shared fits

theorem Matched.all_agree_iff (h : Matched n r t) {calls : List (PairedCall k)}
    (shared : ∀ c ∈ calls, SameNamespace k c.space c.ns ∧ c.call.Shared c.ns) :
    (∀ m ∈ moments r t calls, m.Agree) ↔ ∀ m ∈ moments r t calls, ¬ m.Overruns := by
  induction calls generalizing n r t with
  | nil => exact iff_of_true (List.forall_mem_nil _) (List.forall_mem_nil _)
  | cons c rest ih =>
    have ⟨⟨same, first⟩, later⟩ := List.forall_mem_cons.1 shared
    rw [moments, List.forall_mem_cons, List.forall_mem_cons, h.agree_iff same first]
    exact and_congr_right fun fits => ih (h.next same first fits) later

theorem Matched.none_overruns (h : Matched n r t) {calls : List (PairedCall k)}
    (shared : ∀ c ∈ calls, SameNamespace k c.space c.ns ∧ c.call.Shared c.ns)
    (few : n + calls.length ≤ Int64.maxValue.toInt) :
    ∀ m ∈ moments r t calls, ¬ m.Overruns := by
  induction calls generalizing n r t with
  | nil => exact List.forall_mem_nil _
  | cons c rest ih =>
    have ⟨⟨same, first⟩, later⟩ := List.forall_mem_cons.1 shared
    rw [List.length_cons] at few
    have fits : ¬ (Moment.mk r t c).Overruns :=
      not_overruns_of_few h.twins (by omega) c.call
    exact List.forall_mem_cons.2 ⟨fits, ih (h.next same first fits) later (by omega)⟩

/-- A registry and a stand-in that both begin empty agree on every call of a run, exactly if none of
its updates changes the declared side of an object that has the last generation of 64 bits. As each
call counts at most one generation, there is no such update within as many calls. -/
theorem agrees_with_registry (config : ClientConfig) (calls : List (PairedCall k))
    (shared : ∀ c ∈ calls, SameNamespace k c.space c.ns ∧ c.call.Shared c.ns) :
    let run := moments {} { config } calls
    ((∀ m ∈ run, m.Agree) ↔ ∀ m ∈ run, ¬ m.Overruns)
      ∧ (calls.length ≤ Int64.maxValue.toInt → ∀ m ∈ run, m.Agree) := by
  intro run
  have start : Matched (k := k) 0 {} { config } :=
    ⟨rfl, rfl, by cases k <;> exact Store.twins_empty⟩
  have iff := start.all_agree_iff shared
  exact ⟨iff, fun few => iff.2 (start.none_overruns shared (by omega))⟩

instance (ns : String) (o : Object k) : Decidable (o.Declared ns) :=
  decidable_of_iff
    (o.errors = [] ∧ o.metadata.nameText ≠ ""
      ∧ (k.namespaced = true → o.metadata.namespaceText = ns) ∧ o.metadata.finalizerList = []
      ∧ o.metadata.uidText = "" ∧ o.metadata.versionText = ""
      ∧ o.metadata.creationTimestamp = none ∧ o.metadata.deletionTimestamp = none)
    ⟨fun ⟨valid, named, inside, finalizers, uid, version, created, deleted⟩ =>
        ⟨valid, named, inside, finalizers, uid, version, created, deleted⟩,
      fun h => ⟨h.valid, h.named, h.inside, h.finalizers, h.uid, h.version, h.created, h.deleted⟩⟩

def movedRecord : Object .dnsRecord :=
  { webRecord with
    metadata := { webRecord.metadata with labels := some (.ofList [("tier", "one")]) }
    spec := { federationName := "local" } }

def pairedCalls : List (PairedCall .dnsRecord) :=
  let within (ns : String) (call : Call .dnsRecord) : PairedCall .dnsRecord :=
    { ambient := .plain, ns, call, registryAmbient := Registry.minuteLater, space := some ns }
  [within "web" (.create webRecord {}), within "other" (.create twin {}),
    within "web" (.create webRecord {}), within "web" (.update .main movedRecord {}),
    within "web" (.list { labelSelector := some "tier in (one,two)", limit := some 1 }),
    within "web" (.list { labelSelector := some "tier in" }),
    within "other" (.delete "a" {}), within "other" (.update .main twin {})]

theorem pairedCalls_shared :
    ∀ c ∈ pairedCalls, SameNamespace .dnsRecord c.space c.ns ∧ c.call.Shared c.ns := by
  have web : webRecord.Declared "web" := by decide +kernel
  have other : twin.Declared "other" := by decide +kernel
  have moved : movedRecord.Declared "web" := by decide +kernel
  simp only [pairedCalls, List.forall_mem_cons]
  have web' : SameNamespace .dnsRecord (some "web") "web" := fun _ => ⟨rfl, by decide⟩
  have other' : SameNamespace .dnsRecord (some "other") "other" := fun _ => ⟨rfl, by decide⟩
  exact ⟨⟨web', .create web rfl⟩, ⟨other', .create other rfl⟩, ⟨web', .create web rfl⟩,
    ⟨web', .update moved rfl⟩, ⟨web', .list rfl⟩, ⟨web', .list rfl⟩, ⟨other', .delete "a"⟩,
    ⟨other', .update other rfl⟩, List.forall_mem_nil _⟩

def Moment.summary (m : Moment .dnsRecord) : Option String × List (String × String) :=
  ((Registry.error? m.ofStandIn.1).map (·.name),
    m.ofStandIn.2.records.toList.map fun o => (o.metadata.namespaceText, o.spec.federationName))

theorem agrees_with_registry_moved :
    let run := moments {} {} pairedCalls
    (∀ m ∈ run, m.Agree) ∧ run.map (·.summary) = [
      (none, [("web", "galactic")]), (none, [("web", "galactic"), ("other", "galactic")]),
      (some "AlreadyExists", [("web", "galactic"), ("other", "galactic")]),
      (none, [("web", "local"), ("other", "galactic")]),
      (none, [("web", "local"), ("other", "galactic")]),
      (some "BadRequest", [("web", "local"), ("other", "galactic")]),
      (none, [("web", "local")]), (some "NotFound", [("web", "local")])] := by
  refine ⟨(agrees_with_registry {} pairedCalls pairedCalls_shared).2 (by decide), ?_⟩
  decide +kernel

end FleetRegistry.StandIn
