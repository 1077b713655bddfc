import FleetRegistry.Proofs.Registry.ReadBack
import FleetRegistry.Proofs.Registry.Validity
import FleetRegistry.Proofs.StandIn.Twins

/-!
One call to a registry and to its stand-in, whose stores hold the same content. A creation, an
unconditional update, a deletion and a list from its beginning come to the same on both sides, and
the stores still hold the same content afterwards. The one thing that sets them apart is the
generation, which the registry alone counts, in 64 bits.
-/
namespace FleetRegistry

open StandIn (boundTo)

variable {k : Kind}

/-! ## The calls -/

/-- An object of a namespace as its writer declares it: valid, under a name of its own, and without
finalizers, an identity, a version and the times that the store keeps. Whether it comes with an
observed side makes no difference. -/
structure Object.Declared (ns : String) (o : Object k) : Prop where
  valid : o.errors = []
  named : o.IsNamed
  inside : k.namespaced = true → o.metadata.namespaceText = ns
  finalizers : o.metadata.finalizerList = []
  uid : o.metadata.uidText = ""
  version : o.metadata.versionText = ""
  created : o.metadata.creationTimestamp = none
  deleted : o.metadata.deletionTimestamp = none

/-- Calls in a namespace that mean the same to a registry and to a stand-in. -/
inductive Call.Shared (ns : String) : Call k → Prop
  | create {o : Object k} {options : WriteOptions} (declared : o.Declared ns)
    (earnest : options.dryRun = false) : Shared ns (.create o options)
  | update {o : Object k} {options : WriteOptions} (declared : o.Declared ns)
    (earnest : options.dryRun = false) : Shared ns (.update .main o options)
  | delete (name : String) : Shared ns (.delete name {})
  | list {options : ListOptions} (first : options.continueToken = none) : Shared ns (.list options)

inductive Answer.Same : Answer k (Watch k) → Answer k (Watch k) → Prop
  | object {o o' : Object k} (same : o.content = o'.content) : Same (.object o) (.object o')
  | page {page page' : Page k} (same : page.Same page') : Same (.page page) (.page page')
  | deleted : Same (.deletion .deleted) (.deletion .deleted)

namespace Object.Declared

variable {ns : String} {o : Object k}

theorem regular (h : o.Declared ns) : o.Regular := (errors_eq_nil.1 h.valid).1

theorem outside (h : o.Declared ns) (kind : k.namespaced = false) :
    o.metadata.namespaceText = "" := by
  have none := h.regular.namespaceOfKind
  unfold ObjectMeta.namespaceErrors at none
  rw [kind] at none
  cases empty : o.metadata.namespaceText.isEmpty with
  | true => exact String.isEmpty_iff.1 empty
  | false => simp [empty] at none

theorem namespaceText (h : o.Declared ns) :
    o.metadata.namespaceText = (boundTo k ns).getD "" := by
  unfold boundTo
  cases kind : k.namespaced with
  | false => simpa using h.outside kind
  | true => simpa using h.inside kind

theorem key (h : o.Declared ns) : o.key = .ofAddress k (boundTo k ns) o.anyName := by
  have spaces : o.metadata.ns.getD "" = (boundTo k ns).getD "" := h.namespaceText
  unfold Object.key ObjectKey.ofAddress
  rw [spaces]

theorem bind (h : o.Declared ns) :
    ∃ bound, StandIn.bind (boundTo k ns) o = .ok bound ∧ o.content = bound.content
      ∧ bound.metadata.versionText = "" := by
  refine ⟨o.mapMeta fun m => { m with ns := boundTo k ns }, ?_, ?_, h.version⟩
  · unfold StandIn.bind
    cases bound : boundTo k ns with
    | none => rfl
    | some own =>
      have own' : o.metadata.namespaceText = own := by rw [h.namespaceText, bound]; rfl
      simp [own']
  · show (o.metadata.namespaceText, _) = _
    rw [h.namespaceText]
    rfl

end Object.Declared

namespace StandIn

/-- The namespace of a call to the registry is that of the client of the stand-in. Kinds outside
namespaces do not look at either. -/
def SameNamespace (k : Kind) (space : Option String) (ns : String) : Prop :=
  k.namespaced = true → space = some ns ∧ ns ≠ ""

/-- The same verdict: success, with the same content, or the same error, of one of three kinds. -/
inductive Agree : Outcome (Answer k (Watch k)) → Outcome (Answer k (Watch k)) → Prop
  | ok {answer answer' : Answer k (Watch k)} (same : answer.Same answer') :
    Agree (.ok answer) (.ok answer')
  | notFound (resource name : String) :
    Agree (.error (.notFound resource name)) (.error (.notFound resource name))
  | alreadyExists (resource name : String) :
    Agree (.error (.alreadyExists resource name)) (.error (.alreadyExists resource name))
  | badRequest (fault : RequestFault) :
    Agree (.error (.badRequest fault)) (.error (.badRequest fault))

/-- A change of the declared side that cannot be counted any more. -/
def Overruns (s : Store k) : Call k → Prop
  | .update _ new _ => ∃ old, s.view new.key = some old ∧ new.spec ≠ old.spec
    ∧ old.metadata.generation = some Int64.maxValue
  | _ => False

namespace SameNamespace

variable {space : Option String} {ns : String}

theorem scope (h : SameNamespace k space ns) : Registry.scope k space = .ok (boundTo k ns) := by
  rw [Registry.scope_eq_ok]
  unfold boundTo
  cases kind : k.namespaced with
  | false => simp
  | true =>
    obtain ⟨rfl, given⟩ := h kind
    simp [given]

theorem range (h : SameNamespace k space ns) : Registry.range k space = boundTo k ns := by
  unfold Registry.range boundTo
  cases kind : k.namespaced with
  | false => rfl
  | true =>
    obtain ⟨rfl, given⟩ := h kind
    simp [Option.filter, given]

theorem boundTo_ne (h : SameNamespace k space ns) : boundTo k ns ≠ some "" := by
  unfold boundTo
  cases kind : k.namespaced with
  | false => simp
  | true => simpa using (h kind).2

theorem scope_of_declared (h : SameNamespace k space ns) {o : Object k} (declared : o.Declared ns) :
    Registry.scope k o.metadata.ns = .ok (boundTo k ns) :=
  Registry.scope_of_key h.scope declared.key

end SameNamespace

/-! ## One call -/

open Registry

variable {s t : Store k} {n : Nat} {ns : String} {space : Option String} {o : Object k}
  {ambient ambient' : Ambient}

/-! ### What the store does -/

theorem create_of_free (h : s.Indexed) (named : o.IsNamed) (version : o.metadata.versionText = "")
    (free : s.view o.key = none) (ambient : Ambient) :
    ∃ e, s.create ambient o = (.ok (Store.entered ambient (s.revision + 1) o),
      Store.record e (s.inserted (Store.entered ambient (s.revision + 1) o))) := by
  have answer := h.create_answer ambient named
  rw [if_neg (not_not_intro version), free, if_neg (by simp)] at answer
  rcases Store.create_cases ambient o s with ⟨error, failed⟩ | ⟨-, eq⟩
  · rw [failed] at answer
    cases answer
  · exact ⟨_, eq⟩

theorem create_of_taken (h : s.Indexed) (named : o.IsNamed) (version : o.metadata.versionText = "")
    {old : Object k} (taken : s.view o.key = some old) (ambient : Ambient) :
    s.create ambient o = (.error (.alreadyExists k.qualified o.anyName), s) := by
  have answer := h.create_answer ambient named
  rw [if_neg (not_not_intro version), taken, if_pos Option.isSome_some] at answer
  rcases Store.create_cases ambient o s with ⟨error, failed⟩ | ⟨free, -⟩
  · rw [failed] at answer ⊢
    exact congrArg (·, s) answer
  · rw [taken] at free
    cases free

theorem update_of_found (h : s.Indexed) {old : Object k} (there : s.view o.key = some old)
    (version : o.metadata.versionText = "") :
    ∃ s', s.update o = (.ok (o.withVersion (s.revision + 1)), s')
      ∧ s'.objects = Store.placing old.key (some (o.withVersion (s.revision + 1))) s.objects := by
  obtain ⟨place, mem, eq⟩ := Store.update_of_current h there (.inl (by simp [version]))
  exact ⟨_, eq, (Store.record_objects ..).trans (h.replaced_objects mem _)⟩

theorem delete_of_found (h : s.Indexed) {name : String} {old : Object k}
    (there : s.view (.ofAddress k space name) = some old) :
    ∃ o s', s.delete space name none = (.ok o, s')
      ∧ s'.objects = Store.placing old.key none s.objects := by
  obtain ⟨place, mem, _, eq⟩ := Store.delete_of_met (p := none) h there rfl
  exact ⟨_, _, eq, (Store.record_objects ..).trans (h.removed_objects mem)⟩

theorem get_of_none {name : String} (absent : s.view (.ofAddress k space name) = none) :
    s.get space name = .error (Store.missing k name) := by
  rw [Store.get_eq, absent]

theorem run_of_planned (h : s.Orderly) {e : Edit k} {now : Instant} {old : Object k}
    {plan : Plan k} (there : s.view e.key = some old)
    (planned : e.plan now (s.get e.space e.name) = .ok plan) :
    ∃ result, e.run now s = Registry.answering (e.answer plan) result
      ∧ Concludes e.dryRun plan old s result := by
  have ends := e.ends h now
  generalize e.run now s = ran at ends
  cases ends with
  | refused refused =>
    rw [planned] at refused
    cases refused
  | done there' _ planned' concludes =>
    rw [planned] at planned'
    cases planned'
    rw [there] at there'
    cases there'
    exact ⟨_, rfl, concludes⟩

/-- What comes of a call on both sides. -/
structure Concur (n : Nat) (r r' : Outcome (Answer k (Watch k)) × Store k) : Prop where
  agree : Agree r.1 r'.1
  mirrors : r.2.Mirrors n r'.2

/-! ### Creations -/

theorem twin_newcomer (declared : o.Declared ns) (suffix : String) (n : Nat) :
    (newcomer suffix o).Twin (n + 1) o := by
  have content : (if k.namespaced then o.metadata.ns else none).getD ""
      = o.metadata.namespaceText := by
    cases kind : k.namespaced with
    | false => simpa using (declared.outside kind).symm
    | true => rfl
  rw [newcomer_of_named declared.named]
  refine ⟨?_, declared.named, fun kind => ?_, rfl, declared.finalizers, 1, rfl, by decide, ?_⟩
  · show ((if k.namespaced then o.metadata.ns else none).getD "", _) = _
    rw [content]
    rfl
  · exact content.trans (declared.outside kind)
  · have one : (1 : Int64).toInt = 1 := by decide
    omega

theorem planCreate_of_declared (declared : o.Declared ns) (suffix : String) :
    planCreate suffix o = .ok (newcomer suffix o) := by
  have regular := declared.regular
  have fresh : (newcomer suffix o).Regular := by
    rw [newcomer_of_named declared.named]
    refine ⟨regular.name, regular.generateName, ?_, regular.labels, regular.annotations,
      regular.finalizers, regular.spec⟩
    cases k with
    | cluster => rfl
    | dnsRecord => exact regular.namespaceOfKind
  have errors : (newcomer suffix o).errors = [] := fresh.errors.trans rfl
  simp only [planCreate, errors, List.isEmpty_nil, if_true]
  rfl

theorem create_concur (h : s.Twins n t) (declared : o.Declared ns) :
    Concur (n + 1) (Registry.answering .object (Registry.create ambient false o s))
      (answering .object (create ambient' (boundTo k ns) false o t)) := by
  obtain ⟨bound, binds, content, version⟩ := declared.bind
  have twin := (twin_newcomer declared ambient.suffix n).withContent content
  have boundNamed := Object.named_of_content content declared.named
  have freshVersion : (newcomer ambient.suffix o).metadata.versionText = "" := by
    rw [newcomer_of_named declared.named]
    exact declared.version
  have left : Registry.create ambient false o s
      = s.create ambient (newcomer ambient.suffix o) := by
    simp [Registry.create, planCreate_of_declared declared]
  have right : create ambient' (boundTo k ns) false o t = t.create ambient' bound := by
    simp [create, binds, Object.mapMeta, named_of_isNamed boundNamed]
  have name : (newcomer ambient.suffix o).anyName = bound.anyName :=
    Object.anyName_of_content twin.content twin.named
  rw [left, right]
  rcases h.view bound.key with ⟨free, free'⟩ | ⟨old, old', taken, taken', -⟩
  · rw [← twin.key] at free
    obtain ⟨e, eq⟩ := create_of_free h.orderly.indexed twin.named freshVersion free ambient
    obtain ⟨e', eq'⟩ := create_of_free h.indexed boundNamed version free' ambient'
    rw [eq, eq']
    have entered := twin.entered ambient ambient' (s.revision + 1) (t.revision + 1)
    refine ⟨.ok (.object entered.content), ?_⟩
    exact Store.mirrors_record.2 ((h.mirrors.later (Nat.le_succ n)).inserted entered)
  · rw [← twin.key] at taken
    rw [create_of_taken h.orderly.indexed twin.named freshVersion taken,
      create_of_taken h.indexed boundNamed version taken', name]
    exact ⟨.alreadyExists _ _, h.mirrors.later (Nat.le_succ n)⟩

/-! ### Updates -/

theorem generation_succ {generation : Int64} (notNegative : 0 ≤ generation)
    (more : generation ≠ Int64.maxValue) :
    0 ≤ generation + 1 ∧ (generation + 1).toInt = generation.toInt + 1 := by
  have top : Int64.maxValue.toInt = 2 ^ 63 - 1 := by decide
  have one : (1 : Int64).toInt = 1 := by decide
  have below : generation.toInt ≠ 2 ^ 63 - 1 := fun eq =>
    more (Int64.toInt_inj.1 (eq.trans top.symm))
  have bounded := generation.toInt_lt
  rw [Int64.le_iff_toInt_le, Int64.toInt_zero] at notNegative ⊢
  have sum : (generation + 1).toInt = generation.toInt + 1 := by
    rw [Int64.toInt_add, one]
    exact Int.bmod_eq_of_le (by omega) (by omega)
  omega

variable {old old' : Object k} {name : String}

def inPlaceOf (old o : Object k) : Object k :=
  { o with
    status := old.status
    metadata := { o.metadata with
      resourceVersion := old.metadata.resourceVersion
      uid := old.metadata.uid
      creationTimestamp := old.metadata.creationTimestamp
      deletionTimestamp := none
      generation := some (Object.nextGeneration o old) } }

theorem prepared_of_declared (declared : o.Declared ns) (twin : old.Twin n old') :
    (completed o old).prepareUpdate .main old = inPlaceOf old o := by
  have next : Object.nextGeneration (completed o old) old = Object.nextGeneration o old := rfl
  simp only [Object.prepareUpdate, next]
  simp [completed, inPlaceOf, Object.mapMeta, declared.version, declared.uid, declared.created,
    declared.deleted, ObjectMeta.isDeleting, twin.live]

theorem updateErrors_of_declared (declared : o.Declared ns) (twin : old.Twin n old')
    (key : o.key = old.key) :
    (inPlaceOf old o).updateErrors .main old
      = (inPlaceOf old o).metadata.generationErrors (.ofField "metadata") := by
  have name : o.metadata.nameText = old.metadata.nameText := by
    rw [← Object.anyName_of_named declared.named, ← Object.anyName_of_named twin.named]
    exact congrArg ObjectKey.name key
  have space : o.metadata.namespaceText = old.metadata.namespaceText := by
    cases k with
    | cluster => rw [declared.outside rfl, twin.outside rfl]
    | dnsRecord => exact congrArg ObjectKey.ns key
  have live : old.metadata.isDeleting = false := by simp [ObjectMeta.isDeleting, twin.live]
  have kept : (inPlaceOf old o).metadata.updateErrors old.metadata (.ofField "metadata") = [] :=
    ObjectMeta.updateErrors_eq_nil_iff.2 ⟨name, space, rfl, rfl, by simp [live]⟩
  have regular : (inPlaceOf old o).Regular := declared.regular.congr rfl declared.regular.finalizers
  simp only [Object.updateErrors, kept, regular.errors, List.nil_append]

theorem planUpdate_of_declared (declared : o.Declared ns) (twin : old.Twin n old')
    (key : o.key = old.key) :
    planUpdate {} .main name o old
      = if ((inPlaceOf old o).metadata.generationErrors (.ofField "metadata")).isEmpty then
          .ok (planChange (inPlaceOf old o) old)
        else .error (invalid k name
          ((inPlaceOf old o).metadata.generationErrors (.ofField "metadata"))) := by
  have checked : checkVersion {} name o old = .ok () := by simp [checkVersion, declared.version]
  simp only [planUpdate, checked, prepared_of_declared declared twin,
    updateErrors_of_declared declared twin key]
  rfl

theorem twin_inPlaceOf (declared : o.Declared ns) (twin : old.Twin n old')
    (fits : ¬(o.spec ≠ old.spec ∧ old.metadata.generation = some Int64.maxValue)) :
    (inPlaceOf old o).Twin (n + 1) o := by
  refine ⟨rfl, declared.named, declared.outside, rfl, declared.finalizers, _, rfl, ?_⟩
  obtain ⟨generation, eq, notNegative, bounded⟩ := twin.counted
  simp only [Object.nextGeneration, eq, Option.getD_some]
  split
  next => exact ⟨notNegative, by omega⟩
  next changed =>
    have more : generation ≠ Int64.maxValue := fun last => fits ⟨changed, last ▸ eq⟩
    obtain ⟨notNegative, sum⟩ := generation_succ notNegative more
    exact ⟨notNegative, by omega⟩

theorem planChange_of_live (old : Object k) {final : Object k}
    (live : final.metadata.deletionTimestamp = none) (twin : final.Twin n o) (revision : Nat) :
    ∃ left, (planChange final old).leaves revision old = some left
      ∧ (planChange final old).yields revision old = left ∧ left.Twin n o := by
  unfold planChange
  split
  next same => exact ⟨old, rfl, rfl, same ▸ twin⟩
  next =>
    rw [if_neg (by simp [ObjectMeta.isDeleting, live])]
    exact ⟨_, rfl, rfl, twin.withVersion revision⟩

variable {options : WriteOptions}

theorem ofUpdate_plan (declared : o.Declared ns) (found : Outcome (Object k)) (now : Instant) :
    (Edit.ofUpdate {} .main o options space).plan now found
      = found.bind (planUpdate {} .main o.anyName o) := by
  have named : o.anyName.isEmpty = false := by
    rw [Object.anyName_of_named declared.named, String.isEmpty_eq_false_iff]
    exact declared.named
  simp [Edit.ofUpdate, planUpdateAt, named]

theorem ofUpdate_plan_of_there (declared : o.Declared ns) (h : s.Indexed)
    (there : s.view o.key = some old) (twin : old.Twin n old') (options : WriteOptions)
    (now : Instant) :
    (Edit.ofUpdate {} .main o options (boundTo k ns)).plan now (s.get (boundTo k ns) o.anyName)
      = if ((inPlaceOf old o).metadata.generationErrors (.ofField "metadata")).isEmpty then
          .ok (planChange (inPlaceOf old o) old)
        else .error (invalid k o.anyName
          ((inPlaceOf old o).metadata.generationErrors (.ofField "metadata"))) := by
  have key : o.key = old.key := (h.view_eq_some_iff.1 there).2.symm
  have found : s.get (boundTo k ns) o.anyName = .ok old :=
    Store.get_eq_ok.2 (declared.key ▸ there)
  rw [ofUpdate_plan declared, found]
  exact planUpdate_of_declared declared twin key

theorem update_concur (h : s.Twins n t) (declared : o.Declared ns)
    (same : SameNamespace k space ns) (earnest : options.dryRun = false)
    (fits : ¬ Overruns s (.update .main o options)) :
    Concur (n + 1) (Registry.perform {} ambient space (.update .main o options) s)
      (perform ambient' (boundTo k ns) (.update .main o options) t) := by
  have mirrors := h.mirrors.later (Nat.le_succ n)
  obtain ⟨bound, binds, content, version⟩ := declared.bind
  have key : o.key = bound.key := Object.key_of_content content declared.named
  have right : perform ambient' (boundTo k ns) (.update .main o options) t
      = answering .object (t.update bound) := by
    simp [perform, update, earnest, binds]
  rw [perform_update rfl (same.scope_of_declared declared), right]
  rcases h.view o.key with ⟨absent, absent'⟩ | ⟨old, old', there, there', twin⟩
  · rw [key] at absent'
    rw [declared.key] at absent
    have refused : (Edit.ofUpdate {} .main o options (boundTo k ns)).plan ambient.now
        (s.get (boundTo k ns) o.anyName) = .error (Store.missing k o.anyName) := by
      rw [ofUpdate_plan declared, get_of_none absent]
      rfl
    rw [Edit.run_of_refused refused, Store.update_of_none absent', ← key]
    exact ⟨.notFound _ _, mirrors⟩
  · -- an update that changes nothing leaves the registry as it was, where the stand-in writes:
    -- what the two then hold differs in the version alone
    have next := twin_inPlaceOf declared twin fun overrun => fits ⟨old, there, overrun⟩
    have planned : (Edit.ofUpdate {} .main o options (boundTo k ns)).plan ambient.now
        (s.get (boundTo k ns) o.anyName) = .ok (planChange (inPlaceOf old o) old) := by
      rw [ofUpdate_plan_of_there declared h.orderly.indexed there twin, next.generationErrors]
      rfl
    rw [key] at there'
    obtain ⟨t', eq, objects'⟩ := update_of_found h.indexed there' version
    obtain ⟨result, run, concludes⟩ := run_of_planned
      (e := .ofUpdate {} .main o options (boundTo k ns)) h.orderly (declared.key ▸ there) planned
    obtain ⟨left, leaves, yields, leftTwin⟩ := planChange_of_live old rfl next (s.revision + 1)
    have twins : left.Twin (n + 1) (bound.withVersion (t.revision + 1)) :=
      leftTwin.withContent content
    have answer := concludes.answer
    have objects := concludes.objects
    simp only [Edit.ofUpdate, earnest, Bool.false_eq_true, if_false, leaves, yields]
      at answer objects
    rw [run, eq]
    refine ⟨?_, mirrors.placing (.some twins) objects (twin.key ▸ objects')⟩
    simp only [Registry.answering, answer]
    exact .ok (.object twins.content)

theorem update_overruns (h : s.Twins n t) (declared : o.Declared ns)
    (same : SameNamespace k space ns) (overrun : Overruns s (.update .main o options))
    (ambient : Ambient) :
    ∃ errors, Registry.perform {} ambient space (.update .main o options) s
      = (.error (invalid k o.anyName errors), s) := by
  obtain ⟨old, there, changed, last⟩ := overrun
  obtain ⟨old', -, twin⟩ := h.of_view there
  have refused : ((inPlaceOf old o).metadata.generationErrors (.ofField "metadata")).isEmpty
      = false := by
    have next : (inPlaceOf old o).metadata.generation = some (Int64.maxValue + 1) := by
      simp [inPlaceOf, Object.nextGeneration, changed, last]
    have negative : Int64.maxValue + 1 < 0 := by decide
    simp [ObjectMeta.generationErrors, next, negative]
  have planned := ofUpdate_plan_of_there declared h.orderly.indexed there twin options
    ambient.now
  rw [if_neg (by simp [refused])] at planned
  rw [perform_update rfl (same.scope_of_declared declared)]
  exact ⟨_, Edit.run_of_refused planned⟩

/-! ### Deletions and lists -/

theorem delete_concur (h : s.Twins n t) (same : SameNamespace k space ns) (name : String) :
    Concur (n + 1) (Registry.perform {} ambient space (.delete name {}) s)
      (perform ambient' (boundTo k ns) (.delete name {}) t) := by
  have mirrors := h.mirrors.later (Nat.le_succ n)
  rw [perform_delete same.scope]
  rcases h.view (.ofAddress k (boundTo k ns) name)
    with ⟨absent, absent'⟩ | ⟨old, old', there, there', twin⟩
  · have refused : (Edit.ofDelete (k := k) name {} (boundTo k ns)).plan ambient.now
        (s.get (boundTo k ns) name) = .error (Store.missing k name) := by
      rw [get_of_none absent]
      rfl
    rw [Edit.run_of_refused refused]
    simp only [perform, answering, delete, Store.delete_of_none absent']
    exact ⟨.notFound _ _, mirrors⟩
  · have planned : (Edit.ofDelete name {} (boundTo k ns)).plan ambient.now
        (s.get (boundTo k ns) name) = .ok (.remove old old.metadata.resourceVersion) := by
      rw [Store.get_eq_ok.2 there]
      simp [Edit.ofDelete, Except.bind, planDelete, checkPreconditions, twin.free, finalizersUnder,
        addedFinalizer?]
    obtain ⟨result, run, concludes⟩ :=
      run_of_planned (e := .ofDelete name {} (boundTo k ns)) h.orderly there planned
    obtain ⟨o', t', eq, objects'⟩ := delete_of_found h.indexed there'
    have answer := concludes.answer
    have objects := concludes.objects
    simp only [Edit.ofDelete, Bool.false_eq_true, if_false, Plan.leaves] at answer objects
    rw [run]
    simp only [perform, answering, delete, eq]
    refine ⟨?_, mirrors.placing .none objects (twin.key ▸ objects')⟩
    simp only [Registry.answering, answer]
    exact .ok .deleted

theorem ofListOptions_error {options : ListOptions} {error : RegistryError}
    (refused : Selection.ofListOptions options = .error error) :
    ∃ fault, error = .badRequest fault := by
  unfold Selection.ofListOptions Selection.selectors at refused
  cases label : LabelSelector.parseOptional options.labelSelector with
  | error e =>
    rw [label] at refused
    cases refused
    exact ⟨_, rfl⟩
  | ok label' =>
    rw [label] at refused
    cases field : FieldSelector.parseOptional options.fieldSelector with
    | error e =>
      rw [field] at refused
      cases refused
      exact ⟨_, rfl⟩
    | ok field' =>
      rw [field] at refused
      cases refused

theorem list_concur (h : s.Twins n t) (same : SameNamespace k space ns) {options : ListOptions}
    (first : options.continueToken = none) :
    Concur (n + 1) (Registry.perform {} ambient space (.list options) s)
      (perform ambient' (boundTo k ns) (.list options) t) := by
  refine ⟨?_, h.mirrors.later (Nat.le_succ n)⟩
  simp only [Registry.perform, perform, Registry.list, same.range]
  cases read : Selection.ofListOptions options with
  | error error =>
    obtain ⟨fault, rfl⟩ := ofListOptions_error read
    exact .badRequest fault
  | ok selection =>
    have start : selection.continueToken = none := by
      obtain ⟨selectors, -, eq⟩ := Outcome.bind_eq_ok.1 read
      cases eq
      simp [first]
    obtain ⟨page, page', left, right, shown⟩ := h.mirrors.list same.boundTo_ne start
    simp only [Except.bind, left, right]
    exact .ok (.page shown)

/-! ### Any of them -/

theorem perform_concur (h : s.Twins n t) (same : SameNamespace k space ns) {call : Call k}
    (shared : call.Shared ns) (fits : ¬ Overruns s call) :
    Concur (n + 1) (Registry.perform {} ambient space call s)
      (perform ambient' (boundTo k ns) call t) := by
  cases shared with
  | @create o options declared earnest =>
    simp only [Registry.perform, perform, earnest]
    exact create_concur h declared
  | update declared earnest => exact update_concur h declared same earnest fits
  | delete name => exact delete_concur h same name
  | list first => exact list_concur h same first

/-- After a call both stores still hold the same content. -/
theorem perform_twins (h : s.Twins n t) (same : SameNamespace k space ns) {call : Call k}
    (shared : call.Shared ns) (fits : ¬ Overruns s call) :
    Store.Twins (n + 1) (Registry.perform {} ambient space call s).2
      (perform ambient' (boundTo k ns) call t).2 where
  orderly := h.orderly.leads (perform_leads h.orderly {} ambient space call)
  indexed := by
    have other : isMainPatch call = false := by cases shared <;> rfl
    exact (perform_within h.indexed ambient' ns (not_strays other)).indexed h.indexed
  mirrors := (perform_concur h same shared fits).mirrors

theorem not_agree_of_overruns (h : s.Twins n t) (same : SameNamespace k space ns) {call : Call k}
    (shared : call.Shared ns) (overrun : Overruns s call) {answer : Outcome (Answer k (Watch k))} :
    ¬ Agree (Registry.perform {} ambient space call s).1 answer := by
  cases shared with
  | create | delete | list => exact overrun.elim
  | update declared =>
    obtain ⟨errors, refused⟩ := update_overruns h declared same overrun ambient
    rw [refused]
    nofun

theorem not_overruns_of_few (h : s.Twins n t) (few : n < Int64.maxValue.toInt) (call : Call k) :
    ¬ Overruns s call := by
  cases call with
  | update side o options =>
    rintro ⟨old, there, -, last⟩
    obtain ⟨_, -, twin⟩ := h.of_view there
    obtain ⟨generation, eq, -, bounded⟩ := twin.counted
    obtain rfl : generation = Int64.maxValue := Option.some.inj (eq.symm.trans last)
    omega
  | get | list | watch | create | patch | delete | deleteCollection => exact id

end StandIn

end FleetRegistry
