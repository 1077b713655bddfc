import FleetRegistry.Proofs.Registry.Steps
import FleetRegistry.Proofs.Store.Journal

/-!
What a write is based on. Every change or removal that a call makes names the version that the call
read last, under the key where it read it; the store refuses it unless that object is still there.
-/
namespace FleetRegistry

variable {k : Kind}

def Object.IsNamed (o : Object k) : Prop := o.metadata.nameText ≠ ""

namespace Store.Write

def replaces? : Write k → Option ObjectKey
  | create .. => none
  | update o => some o.key
  | delete ns name _ => some (.ofAddress k ns name)

/-- Whether a write is based on what was read last: it replaces or removes no other object, and
names its version. A creation is based on nothing. -/
def BasedOn (last : Option (Object k)) : Write k → Prop
  | create _ o => o.IsNamed ∧ last = none
  | update o => o.IsNamed ∧ ∃ old, last = some old ∧ o.key = old.key
      ∧ o.metadata.resourceVersion = old.metadata.resourceVersion
  | delete ns name p => ∃ old, last = some old ∧ .ofAddress k ns name = old.key
      ∧ p = some { resourceVersion := old.metadata.resourceVersion }

end Store.Write

def Plan.BasedOn (old : Object k) : Plan k → Prop
  | keep _ => True
  | put o => o.IsNamed ∧ o.key = old.key
      ∧ o.metadata.resourceVersion = old.metadata.resourceVersion
  | remove _ version => version = old.metadata.resourceVersion

/-! ## Plans -/

theorem ObjectMeta.updateErrors_eq_nil_iff {new old : ObjectMeta} {path : FieldPath} :
    new.updateErrors old path = [] ↔
      new.nameText = old.nameText ∧ new.namespaceText = old.namespaceText
        ∧ new.uidText = old.uidText ∧ new.creationTimestamp = old.creationTimestamp
        ∧ (old.isDeleting = true → new.isDeleting = true) := by
  have fixed {path : FieldPath} {new old : String} :
      fixedTextErrors path new old = [] ↔ new = old := by
    simp [fixedTextErrors]
  simp [updateErrors, fixed]

namespace Object

variable {o o' : Object k}

theorem anyName_of_named (named : o.IsNamed) : o.anyName = o.metadata.nameText := by
  unfold IsNamed ObjectMeta.nameText at named
  unfold anyName ObjectMeta.anyName ObjectMeta.nameText
  cases h : o.metadata.name with
  | none => simp [h] at named
  | some name => rfl

theorem key_of_texts (named : o'.IsNamed) (names : o.metadata.nameText = o'.metadata.nameText)
    (spaces : o.metadata.namespaceText = o'.metadata.namespaceText) : o.key = o'.key := by
  have here : o.IsNamed := fun empty => named (names ▸ empty)
  unfold key ObjectKey.ofAddress
  rw [anyName_of_named here, anyName_of_named named, names]
  simp only [ObjectMeta.namespaceText] at spaces
  rw [spaces]

theorem texts_of_updateErrors {side : WriteSide} (accepted : (o.updateErrors side o').isEmpty) :
    o.metadata.nameText = o'.metadata.nameText
      ∧ o.metadata.namespaceText = o'.metadata.namespaceText := by
  simp only [updateErrors, List.isEmpty_iff, List.append_eq_nil_iff,
    ObjectMeta.updateErrors_eq_nil_iff] at accepted
  exact ⟨accepted.1.1, accepted.1.2.1⟩

end Object

namespace Registry

theorem checkVersion_eq_ok {policy : WritePolicy} {name : String} {new old : Object k}
    (h : checkVersion policy name new old = .ok ()) :
    new.metadata.versionText.isEmpty = true
      ∨ new.metadata.resourceVersion = old.metadata.resourceVersion := by
  unfold checkVersion at h
  split at h
  next empty => exact .inl empty
  next =>
    split at h
    next same => exact .inr same
    next => cases h

theorem version_completed {policy : WritePolicy} {name : String} {new old : Object k}
    (h : checkVersion policy name new old = .ok ()) :
    (completed new old).metadata.resourceVersion = old.metadata.resourceVersion := by
  simp only [completed, Object.mapMeta]
  rcases checkVersion_eq_ok h with empty | same
  · rw [if_pos empty]
  · split
    next => rfl
    next => exact same

theorem planChange_basedOn {final old : Object k} (named : final.IsNamed)
    (key : final.key = old.key)
    (version : final.metadata.resourceVersion = old.metadata.resourceVersion) :
    (planChange final old).BasedOn old := by
  unfold planChange
  split
  next => trivial
  next =>
    split
    next => rfl
    next => exact ⟨named, key, version⟩

theorem planUpdate_basedOn {policy : WritePolicy} {side : WriteSide} {name : String}
    {new old : Object k} {plan : Plan k} (named : old.IsNamed)
    (h : planUpdate policy side name new old = .ok plan) : plan.BasedOn old := by
  unfold planUpdate at h
  split at h
  next => cases h
  next checked =>
    simp only at h
    split at h
    next accepted =>
      cases h
      have ⟨names, spaces⟩ := Object.texts_of_updateErrors accepted
      -- Preparing the write and its canonical form leave name, namespace and version alone.
      have version : ((completed new old).prepareUpdate side old).metadata.resourceVersion
          = old.metadata.resourceVersion := by
        cases side <;> exact version_completed checked
      have kept (x : Object k) : (x.canonicalize side).metadata = x.metadata := by
        cases side <;> rfl
      refine planChange_basedOn ?_ ?_ (by rw [kept, version])
      · unfold Object.IsNamed
        rw [kept, names]
        exact named
      · exact Object.key_of_texts named (by rw [kept, names]) (by rw [kept, spaces])
    next => cases h

theorem marked_basedOn {now : Instant} {finalizers : List String} {o : Object k}
    (named : o.IsNamed) : (Plan.put (marked now finalizers o)).BasedOn o := by
  have kept : (marked now finalizers o).metadata.nameText = o.metadata.nameText
      ∧ (marked now finalizers o).metadata.namespaceText = o.metadata.namespaceText
      ∧ (marked now finalizers o).metadata.resourceVersion = o.metadata.resourceVersion := by
    unfold marked Object.mapMeta
    simp only
    split <;> exact ⟨rfl, rfl, rfl⟩
  have ⟨name, space, version⟩ := kept
  refine ⟨?_, Object.key_of_texts named name space, version⟩
  unfold Object.IsNamed
  rw [name]
  exact named

theorem planDelete_basedOn {now : Instant} {options : DeleteOptions} {o : Object k} {plan : Plan k}
    (named : o.IsNamed) (h : planDelete now options o = .ok plan) : plan.BasedOn o := by
  unfold planDelete at h
  split at h
  next => cases h
  next =>
    simp only at h
    split at h
    next =>
      cases h
      rfl
    next =>
      split at h
      next =>
        cases h
        trivial
      next =>
        cases h
        exact marked_basedOn named

theorem generated_ne_empty {base : String} (given : base.isEmpty = false) (suffix : String) :
    Generated.name base suffix ≠ "" := by
  unfold Generated.name Generated.baseLimit
  intro empty
  have chars := congrArg String.toList empty
  cases h : base.toList with
  | nil => simp_all [String.toList_eq_nil_iff]
  | cons c rest => simp [h] at chars

theorem nameText_newcomer (suffix : String) (o : Object k) :
    (newcomer suffix o).metadata.nameText = (o.metadata.named suffix).nameText := rfl

theorem named_newcomer {suffix : String} {o : Object k} {check : ObjectMeta.NameCheck}
    {path : FieldPath} (accepted : (newcomer suffix o).metadata.nameErrors check path = []) :
    (newcomer suffix o).IsNamed := by
  intro unnamed
  have base : (newcomer suffix o).metadata.generateName = o.metadata.generateName := by
    show (o.metadata.named suffix).generateName = _
    unfold ObjectMeta.named
    grind
  unfold ObjectMeta.nameErrors at accepted
  rw [unnamed, base] at accepted
  rw [nameText_newcomer] at unnamed
  unfold ObjectMeta.named at unnamed
  split at unnamed
  next =>
    split at unnamed
    next base eq =>
      split at unnamed
      next none => simp [eq, none] at accepted
      next given => exact generated_ne_empty (Bool.not_eq_true _ ▸ given) suffix unnamed
    next eq => simp [eq] at accepted
  next own => simp [unnamed] at own

theorem named_of_planCreate {suffix : String} {o fresh : Object k}
    (h : planCreate suffix o = .ok fresh) : fresh.IsNamed := by
  unfold planCreate at h
  simp only at h
  split at h
  next accepted =>
    cases h
    simp only [Object.errors, ObjectMeta.errors, List.isEmpty_iff, List.append_eq_nil_iff]
      at accepted
    exact named_newcomer accepted.1.1.1.1.1.1.1
  next => cases h

end Registry

/-! ## Steps -/

namespace Steps

variable {α β : Type}

def Guarded : Option (Object k) → Steps k α → Prop
  | _, done _ => True
  | _, read ns name next => ∀ found : Outcome (Object k),
    (∀ o, found = .ok o → o.key = .ofAddress k ns name ∧ o.IsNamed) →
      Guarded found.toOption (next found)
  | _, look next => ∀ s, Guarded none (next s)
  | last, write w next => w.BasedOn last ∧ ∀ written, Guarded none (next written)

def Within (p : Steps k α) (n : Nat) : Prop :=
  match p with
  | done _ => True
  | read _ _ next =>
    match n with
    | 0 => False
    | n + 1 => ∀ found, (next found).Within n
  | look _ => False
  | write _ next => (∀ error, next (.error error) = done (.error error))
    ∧ ∀ o, ∃ a, next (.ok o) = done (.ok a)

theorem Guarded.bind {p : Steps k α} {f : Outcome α → Steps k β} {last : Option (Object k)}
    (h : p.Guarded last) (next : ∀ outcome last', (f outcome).Guarded last') :
    (p.bind f).Guarded last := by
  induction p generalizing last with
  | done outcome => exact next outcome last
  | read ns name _ ih => exact fun found stored => ih found (h found stored)
  | look _ ih => exact fun s => ih s (h s)
  | write w _ ih => exact ⟨h.1, fun written => ih written (h.2 written)⟩

theorem Guarded.map {p : Steps k α} {last : Option (Object k)} (h : p.Guarded last) (f : α → β) :
    (p.map f).Guarded last := h.bind fun _ _ => trivial

theorem Within.map {n : Nat} {p : Steps k α} (h : p.Within n) (f : α → β) :
    (p.map f).Within n := by
  induction p generalizing n with
  | done outcome => trivial
  | read ns name next ih =>
    cases n with
    | zero => exact h
    | succ n => exact fun found => ih found (h found)
  | look next => exact h
  | write w next _ =>
    refine ⟨fun error => ?_, fun o => ?_⟩
    · show (next (.error error)).map f = _
      rw [h.1 error]
      rfl
    · obtain ⟨a, eq⟩ := h.2 o
      refine ⟨f a, ?_⟩
      show (next (.ok o)).map f = _
      rw [eq]
      rfl

end Steps

namespace Registry

variable {policy : WritePolicy} {ambient : Ambient} {side : WriteSide} {ns : Option String}
  {name : String} {dryRun : Bool}

theorem createSteps_guarded (o : Object k) : (createSteps ambient dryRun o).Guarded none := by
  unfold createSteps
  split
  next => trivial
  next fresh planned =>
    cases dryRun with
    | true => trivial
    | false => exact ⟨⟨named_of_planCreate planned, rfl⟩, fun _ => trivial⟩

theorem createSteps_within (n : Nat) (o : Object k) :
    (createSteps ambient dryRun o).Within n := by
  unfold createSteps
  split
  next => trivial
  next =>
    cases dryRun with
    | true => trivial
    | false => exact ⟨fun _ => rfl, fun o => ⟨o, rfl⟩⟩

theorem planSteps_guarded {plan : Plan k} {old : Object k} (based : plan.BasedOn old)
    (key : old.key = .ofAddress k ns name) :
    (planSteps dryRun ns name plan).Guarded (some old) := by
  cases dryRun with
  | true => trivial
  | false =>
    cases plan with
    | keep o => trivial
    | put o => exact ⟨⟨based.1, old, rfl, based.2⟩, fun _ => trivial⟩
    | remove o version => exact ⟨⟨old, rfl, key.symm, by rw [based]⟩, fun _ => trivial⟩

theorem planSteps_within (n : Nat) (plan : Plan k) :
    (planSteps dryRun ns name plan).Within n := by
  cases dryRun with
  | true => trivial
  | false =>
    cases plan with
    | keep o => trivial
    | put o => exact ⟨fun _ => rfl, fun o => ⟨o, rfl⟩⟩
    | remove o version => exact ⟨fun _ => rfl, fun o => ⟨o, rfl⟩⟩

theorem updateAtSteps_guarded (new : Object k) (last : Option (Object k)) :
    (updateAtSteps policy ambient side ns name dryRun new).Guarded last := by
  unfold updateAtSteps
  split
  next => trivial
  next =>
    intro found stored
    cases found with
    | error error =>
      simp only
      split
      next => exact createSteps_guarded new
      next => trivial
    | ok old =>
      have ⟨key, named⟩ := stored old rfl
      simp only
      split
      next => trivial
      next plan planned => exact planSteps_guarded (planUpdate_basedOn named planned) key

theorem updateAtSteps_within (new : Object k) :
    (updateAtSteps policy ambient side ns name dryRun new).Within 1 := by
  unfold updateAtSteps
  split
  next => trivial
  next =>
    intro found
    cases found with
    | error error =>
      simp only
      split
      next => exact createSteps_within 0 new
      next => trivial
    | ok old =>
      simp only
      split
      next => trivial
      next plan _ => exact planSteps_within 0 plan

theorem updateSteps_guarded (new : Object k) (last : Option (Object k)) :
    (updateSteps policy ambient side dryRun new).Guarded last := by
  unfold updateSteps
  split
  next => trivial
  next => exact updateAtSteps_guarded new last

theorem updateSteps_within (new : Object k) :
    (updateSteps policy ambient side dryRun new).Within 1 := by
  unfold updateSteps
  split
  next => trivial
  next => exact updateAtSteps_within new

theorem patchAtSteps_guarded (document : PatchRequest) (last : Option (Object k)) :
    (patchAtSteps policy ambient side ns name document dryRun).Guarded last := by
  intro found stored
  cases found with
  | error error => trivial
  | ok current =>
    simp only
    split
    next => trivial
    next new _ => exact updateAtSteps_guarded new _

theorem patchSteps_guarded (document : PatchRequest) (last : Option (Object k)) :
    (patchSteps policy ambient ns name document dryRun).Guarded last := by
  unfold patchSteps
  split
  next => trivial
  next =>
    split
    next => trivial
    next => exact patchAtSteps_guarded document last

theorem patchSteps_within (document : PatchRequest) :
    (patchSteps (k := k) policy ambient ns name document dryRun).Within 2 := by
  unfold patchSteps
  split
  next => trivial
  next =>
    split
    next => trivial
    next =>
      intro found
      cases found with
      | error error => trivial
      | ok current =>
        simp only
        split
        next => trivial
        next new _ => exact updateAtSteps_within new

theorem deleteAtSteps_guarded (now : Instant) (options : DeleteOptions)
    (last : Option (Object k)) : (deleteAtSteps now ns name options).Guarded last := by
  intro found stored
  cases found with
  | error error => trivial
  | ok o =>
    have ⟨key, named⟩ := stored o rfl
    simp only
    split
    next => trivial
    next plan planned => exact (planSteps_guarded (planDelete_basedOn named planned) key).map _

theorem deleteSteps_guarded (now : Instant) (options : DeleteOptions)
    (last : Option (Object k)) : (deleteSteps now ns name options).Guarded last := by
  unfold deleteSteps
  split
  next => trivial
  next => exact deleteAtSteps_guarded now options last

theorem deleteSteps_within (now : Instant) (options : DeleteOptions) :
    (deleteSteps (k := k) now ns name options).Within 1 := by
  unfold deleteSteps
  split
  next => trivial
  next =>
    intro found
    cases found with
    | error error => trivial
    | ok o =>
      simp only
      split
      next => trivial
      next plan _ => exact (planSteps_within 0 plan).map _

theorem deleteEachSteps_guarded (now : Instant) (options : DeleteOptions)
    (objects : List (Object k)) (last : Option (Object k)) :
    (deleteEachSteps now options objects).Guarded last := by
  induction objects generalizing last with
  | nil => trivial
  | cons o rest ih =>
    refine (deleteAtSteps_guarded now options last).bind fun outcome last' => ?_
    cases outcome with
    | ok _ => exact ih last'
    | error error => exact (ih last').map _

theorem deleteCollectionSteps_guarded (now : Instant) (selection : ListOptions)
    (options : DeleteOptions) (last : Option (Object k)) :
    (deleteCollectionSteps (k := k) now ns selection options).Guarded last := by
  unfold deleteCollectionSteps
  split
  next => trivial
  next =>
    intro s
    simp only
    split
    next => trivial
    next page _ =>
      exact (deleteEachSteps_guarded now options page.items none).bind fun _ _ => trivial

/-- Every write of a call is based on what the call read last. -/
theorem callSteps_guarded (policy : WritePolicy) (ambient : Ambient) (ns : Option String)
    (call : Call k) : (callSteps policy ambient ns call).Guarded none := by
  cases call with
  | get name =>
    unfold callSteps
    cases scope k ns with
    | error error => trivial
    | ok ns => exact fun _ _ => trivial
  | list options => exact fun _ => trivial
  | watch options => exact fun _ => trivial
  | create o options => exact (createSteps_guarded o).map _
  | update side o options => exact (updateSteps_guarded o none).map _
  | patch name document options => exact (patchSteps_guarded document none).map _
  | delete name options => exact (deleteSteps_guarded ambient.now options none).map _
  | deleteCollection selection options =>
    exact (deleteCollectionSteps_guarded ambient.now selection options none).map _

end Registry

end FleetRegistry
