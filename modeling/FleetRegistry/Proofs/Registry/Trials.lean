import FleetRegistry.Proofs.Interleaving.Patching
import FleetRegistry.Proofs.Registry.Locality

/-!
Trials. A write that is only tried makes the plan that it would make in earnest, and a plan that was
made from a stored object does not fail when it is carried out. So the trial tells what would come
of the write. Creations are the exception: what is already stored under a key, and whether the new
object carries a version, the store looks at only when it is given that object.
-/
namespace FleetRegistry

variable {k : Kind} {t t' : Instant}

namespace Call

/-- A write that is only tried, or in earnest; a reading call stays as it is. -/
def trying (dryRun : Bool) : Call k → Call k
  | create o options => .create o { options with dryRun }
  | update side o options => .update side o { options with dryRun }
  | patch name document options => .patch name document { options with dryRun }
  | delete name options => .delete name { options with dryRun }
  | deleteCollection selection options => .deleteCollection selection { options with dryRun }
  | call => call

/-- Whether a call changes or deletes one stored object. -/
def isEdit : Call k → Bool
  | update .. | patch .. | delete .. => true
  | get _ | list _ | watch _ | create .. | deleteCollection .. => false

def isDelete : Call k → Bool
  | delete .. => true
  | _ => false

/-- Whether a call is an update that has its object created, as there is none to update. The policy
has to permit that, which it does not by default. -/
def Creates (policy : WritePolicy) (s : Store k) : Call k → Prop
  | update _ new _ => policy.createOnUpdate = true
    ∧ ∃ space, Registry.scope k new.metadata.ns = .ok space
      ∧ s.view (.ofAddress k space new.anyName) = none
  | _ => False

end Call

abbrev Outcome.Agree {α : Type} : Outcome α → Outcome α → Prop := Outcome.Rel fun _ _ => True

/-! ## Plans, tried and carried out -/

theorem Plan.Alike.foretells {plan plan' : Plan k} (h : plan.Alike t t' plan') {revision : Nat}
    {old : Object k} (left : plan'.leaves revision old ≠ none) :
    plan.object.Alike t t' (plan'.yields revision old) := by
  cases h with
  | put alike => exact ⟨alike.spec, alike.status, alike.deletion, alike.others⟩
  | same =>
    cases plan with
    | keep o => exact .refl ..
    | put final => exact ⟨rfl, rfl, .inl rfl, rfl⟩
    | remove o version => exact (left rfl).elim

namespace Registry

variable {policy : WritePolicy} {ambient : Ambient} {ns : Option String} {s : Store k}

namespace Edit

variable {e : Edit k}

def trying (dryRun : Bool) (e : Edit k) : Edit k := { e with dryRun }

theorem answer_foretells {plan plan' : Plan k} (h : plan.Alike t t' plan') {revision : Nat}
    {old : Object k} (told : e.deletes = true ∨ plan'.leaves revision old ≠ none) :
    Answer.Alike t t' (e.answer plan plan.object)
      (e.answer plan' (plan'.yields revision old)) := by
  by_cases left : plan'.leaves revision old = none
  · cases h with
    | put => cases left
    | same =>
      cases plan with
      | keep => cases left
      | put => cases left
      | remove o version =>
        simp only [answer, told.resolve_right (not_not_intro left), if_true]
        exact .deleted
  · exact answer_alike h (h.foretells left)

theorem Ends.foretells {r r' : Outcome (Answer k (Watch k)) × Store k}
    (tried : (e.trying true).Ends t s r) (real : (e.trying false).Ends t' s r')
    (plans : ∀ found, Outcome.Rel (Plan.Alike t t') (e.plan t found) (e.plan t' found)) :
    Outcome.Rel (fun a a' => (e.deletes = true ∨ r'.2.view e.key ≠ none) → a.Alike t t' a')
      r.1 r'.1 := by
  cases tried.together real (plans _) with
  | refused error => exact .error error
  | @done old old' plan plan' result result' there there' key alike concludes concludes' =>
    obtain rfl : old = old' := Option.some.inj (there.symm.trans there')
    simp only [answering, concludes.answer, concludes'.answer, Except.map]
    refine .ok fun told => answer_foretells alike (told.imp_right ?_)
    rw [concludes'.view, show e.key = old.key from key.symm, Function.update_self]
    exact id

end Edit

theorem edit?_trying (dryRun : Bool) (policy : WritePolicy) (ns : Option String) (call : Call k) :
    (call.trying dryRun).edit? policy ns = (call.edit? policy ns).map (Edit.trying dryRun) := by
  cases call <;> simp only [Call.trying, Call.edit?, Option.map_map, Option.map_none] <;> rfl

/-! ## Updates that may create -/

theorem updateAt_of_found {name : String} {old : Object k} (found : s.get ns name = .ok old)
    (side : WriteSide) (dryRun : Bool) (new : Object k) :
    updateAt policy ambient side ns name dryRun new s
      = updateAt { policy with createOnUpdate := false } ambient side ns name dryRun new s := by
  simp only [updateAt, found]
  rfl

theorem perform_of_not_creates {call : Call k} (keeps : ¬ call.Creates policy s) :
    perform policy ambient ns call s
      = perform { policy with createOnUpdate := false } ambient ns call s := by
  cases call with
  | update side new options =>
    simp only [perform, update]
    cases inScope : scope k new.metadata.ns with
    | error error => rfl
    | ok space =>
      dsimp only
      cases found : s.get space new.anyName with
      | ok old => rw [updateAt_of_found found]
      | error error =>
        have off : policy.createOnUpdate = false := by
          by_contra on
          refine keeps ⟨by simpa using on, space, inScope, ?_⟩
          rw [Store.get_eq] at found
          cases there : s.view (.ofAddress k space new.anyName) with
          | none => rfl
          | some o => rw [there] at found; cases found
        rw [← off]
  | patch name document options =>
    simp only [perform, patch, patchAt]
    cases scope k ns with
    | error error => rfl
    | ok space =>
      dsimp only
      cases document.side with
      | error error => rfl
      | ok side =>
        dsimp only
        cases found : s.get space name with
        | error error => rfl
        | ok current =>
          dsimp only
          cases patched document current with
          | error error => rfl
          | ok new => simp only [updateAt_of_found found]
  | get | list | watch | create | delete | deleteCollection => rfl

theorem perform_of_creates {side : WriteSide} {new : Object k} {options : WriteOptions}
    (creates : (Call.update side new options).Creates policy s) (named : new.anyName ≠ "") :
    perform policy ambient ns (.update side new options) s
      = perform policy ambient ns (.create new options) s := by
  obtain ⟨on, space, inScope, absent⟩ := creates
  have missing : s.get space new.anyName = .error (Store.missing k new.anyName) := by
    rw [Store.get_eq, absent]
  simp only [perform, update, inScope, updateAt, missing, on, Store.missing,
    RegistryError.isNotFound, Bool.and_self, if_true]
  rw [if_neg (by simpa using named)]

/-! ## Trials of edits -/

theorem creates_trying {dryRun : Bool} {call : Call k} :
    (call.trying dryRun).Creates policy s ↔ call.Creates policy s := by
  cases call <;> rfl

theorem Edit.of_call {call : Call k} {e : Edit k} (edits : call.edit? policy ns = some e) :
    call.target? ns = some e.key ∧ call.isDelete = e.deletes := by
  cases call <;> simp only [Call.edit?, reduceCtorEq, Option.map_eq_some_iff] at edits <;>
    obtain ⟨space, inScope, rfl⟩ := edits <;>
    exact ⟨Option.map_eq_some_iff.2 ⟨space, inScope, rfl⟩, rfl⟩

theorem perform_of_unaddressed {call : Call k} (isEdit : call.isEdit = true)
    (unaddressed : call.edit? policy ns = none) :
    ∃ error, ∀ ambient dryRun,
      perform policy ambient ns (call.trying dryRun) s = (.error error, s) := by
  cases call with
  | get | list | watch | create | deleteCollection => cases isEdit
  | update side new options =>
    cases inScope : scope k new.metadata.ns with
    | ok space => simp [Call.edit?, inScope, Except.toOption] at unaddressed
    | error error =>
      refine ⟨error, fun ambient dryRun => ?_⟩
      simp only [Call.trying, perform, update, inScope]
      rfl
  | patch name document options =>
    cases inScope : scope k ns with
    | ok space => simp [Call.edit?, inScope, Except.toOption] at unaddressed
    | error error =>
      refine ⟨error, fun ambient dryRun => ?_⟩
      simp only [Call.trying, perform, patch, inScope]
      rfl
  | delete name options =>
    cases inScope : scope k ns with
    | ok space => simp [Call.edit?, inScope, Except.toOption] at unaddressed
    | error error =>
      refine ⟨error, fun ambient dryRun => ?_⟩
      simp only [Call.trying, perform, delete, inScope]
      rfl

/-- A trial of a call about one stored object has the verdict that the call has in earnest, at that
time or later, as long as the store stays as it is: the same error, or success. What it answers is
then the same up to the version and the time of a deletion that begins; only of an object that the
call takes out without being a deletion it may say something else. An update that creates its object
is a creation, and is no such call. -/
theorem trial_foretells (policy : WritePolicy) (requests : List (Request k)) (ns : Option String)
    (call : Call k) (isEdit : call.isEdit = true) (ambient ambient' : Ambient)
    (keeps : ¬ call.Creates policy (after policy (.empty k) requests)) :
    let s := after policy (.empty k) requests
    let tried := perform policy ambient ns (call.trying true) s
    let real := perform policy ambient' ns (call.trying false) s
    Outcome.Rel (fun answer answer' =>
      (call.isDelete = true ∨ ∃ key, call.target? ns = some key ∧ real.2.view key ≠ none) →
        answer.Alike ambient.now ambient'.now answer') tried.1 real.1 := by
  intro s tried real
  let kept : WritePolicy := { policy with createOnUpdate := false }
  have same (ambient : Ambient) (dryRun : Bool) :
      perform policy ambient ns (call.trying dryRun) s
        = perform kept ambient ns (call.trying dryRun) s :=
    perform_of_not_creates (mt creates_trying.1 keeps)
  have orderly : s.Orderly := orderly_after policy requests
  cases edits : call.edit? kept ns with
  | none =>
    have ⟨error, refused⟩ := perform_of_unaddressed (s := s) isEdit edits
    rw [show tried = _ from (same ..).trans (refused ..),
      show real = _ from (same ..).trans (refused ..)]
    exact .error error
  | some e =>
    have ⟨target, deletes⟩ := Edit.of_call edits
    have ends (ambient : Ambient) (dryRun : Bool) : (e.trying dryRun).Ends ambient.now s
        (perform policy ambient ns (call.trying dryRun) s) := by
      rw [same]
      refine Edit.ends_perform rfl ?_ orderly ambient
      rw [edit?_trying, edits, Option.map_some]
    have foretells := (ends ambient true).foretells (ends ambient' false)
      (edit_plan_alike edits _ _)
    rw [← deletes] at foretells
    simpa only [target, Option.some.injEq, exists_eq_left'] using foretells

/-- A label is tried, and set a minute later, under a policy by which updates may create. -/
theorem trial_foretells_labelling :
    let policy : WritePolicy := { createOnUpdate := true }
    let s := after policy (.empty .cluster) (clusters ["b"])
    let tried := perform policy .plain none (labelling.trying true) s
    let real := perform policy minuteLater none (labelling.trying false) s
    SameVerdict Ambient.plain.now minuteLater.now tried.1 real.1
      ∧ tried.2.objects.map (·.2.metadata.resourceVersion) = [some "1"]
      ∧ real.2.objects.map (·.2.metadata.resourceVersion) = [some "2"] := by
  intro policy s tried real
  have there : s.view ⟨"", "b"⟩ ≠ none := by decide +kernel
  have keeps : ¬ labelling.Creates policy s := by
    rintro ⟨-, space, inScope, absent⟩
    cases inScope
    exact there absent
  have foretells := trial_foretells policy (clusters ["b"]) none labelling rfl .plain minuteLater
    keeps
  have left : real.2.view ⟨"", "b"⟩ ≠ none := by decide +kernel
  refine ⟨?_, by decide +kernel, by decide +kernel⟩
  exact foretells.imp fun told => told (.inr ⟨_, rfl, left⟩)

end Registry

/-! ## Trials of creations -/

/-- An object as it starts: nothing observed yet, first generation, no deletion in progress, and in
a namespace only if its kind has them. -/
def Object.started (o : Object k) : Object k where
  spec := o.spec
  status := none
  metadata := { o.metadata with
    ns := if k.namespaced then o.metadata.ns else none
    generation := some 1
    deletionTimestamp := none
    deletionGracePeriodSeconds := none }

namespace Registry

theorem named_of_isNamed {o : Object k} (named : o.IsNamed) (suffix : String) :
    o.metadata.named suffix = o.metadata :=
  if_neg (by simpa [Object.IsNamed] using named)

theorem newcomer_of_named {o : Object k} (named : o.IsNamed) (suffix : String) :
    newcomer suffix o = o.started := by
  simp only [newcomer, Object.mapMeta, named_of_isNamed named]
  rfl

theorem planCreate_of_named {o : Object k} (named : o.IsNamed) (suffix suffix' : String) :
    planCreate suffix o = planCreate suffix' o := by
  simp only [planCreate, newcomer_of_named named]

theorem key_newcomer {o : Object k} (named : o.IsNamed) (suffix : String) :
    (newcomer suffix o).key = o.key := by
  rw [newcomer_of_named named]
  show ObjectKey.mk (if k.namespaced then (if k.namespaced then o.metadata.ns else none).getD ""
    else "") o.anyName = _
  unfold Object.key ObjectKey.ofAddress
  split <;> rfl

end Registry

theorem Store.Indexed.create_answer {s : Store k} (h : s.Indexed) (ambient : Ambient)
    {fresh : Object k} (named : fresh.IsNamed) :
    (s.create ambient fresh).1 =
      if fresh.metadata.versionText ≠ "" then .error (.badRequest .versionOnCreate)
      else if (s.view fresh.key).isSome then .error (.alreadyExists k.qualified fresh.anyName)
      else .ok (entered ambient (s.revision + 1) fresh) := by
  have name : fresh.key.name ≠ "" := (Object.anyName_of_named named).trans_ne named
  have taken : (s.index.lookup fresh.key).isSome = (s.view fresh.key).isSome := by
    rw [Bool.eq_iff_iff, Option.isSome_iff_ne_none, Option.isSome_iff_ne_none, not_iff_not,
      h.view_eq_none_iff, Option.eq_none_iff_forall_ne_some]
    exact forall_congr' fun place => not_congr (lookup_eq_some_iff_mem h.keysOnce)
  unfold create
  rw [if_neg (by simpa using name), taken]
  by_cases version : fresh.metadata.versionText = ""
  · by_cases there : (s.view fresh.key).isSome = true
    · rw [if_neg (by simp [version]), if_pos there, if_neg (not_not_intro version), if_pos there]
      rfl
    · rw [if_neg (by simp [version]), if_neg there, if_neg (not_not_intro version), if_neg there]
  · rw [if_pos (by simp [version]), if_pos version]

namespace Registry

variable {policy : WritePolicy} {ambient : Ambient} {ns : Option String} {s : Store k}

theorem perform_create (dryRun : Bool) (o : Object k) (options : WriteOptions) :
    (perform policy ambient ns ((Call.create o options).trying dryRun) s).1
      = (create ambient dryRun o s).1.map .object := by
  simp only [Call.trying, perform, answering]

theorem create_tried (o : Object k) :
    (create ambient true o s).1 = planCreate ambient.suffix o := by
  unfold create
  cases planCreate ambient.suffix o <;> rfl

theorem create_of_refused {o : Object k} {error : RegistryError}
    (refused : planCreate ambient.suffix o = .error error) (dryRun : Bool) :
    create ambient dryRun o s = (.error error, s) := by
  unfold create
  rw [refused]

theorem create_of_planned (h : s.Indexed) {o fresh : Object k} (named : o.IsNamed)
    (planned : planCreate ambient.suffix o = .ok fresh) :
    (create ambient false o s).1 =
      if o.metadata.versionText ≠ "" then .error (.badRequest .versionOnCreate)
      else if (s.view o.key).isSome then .error (.alreadyExists k.qualified o.anyName)
      else .ok (Store.entered ambient (s.revision + 1) fresh) := by
  have version : fresh.metadata.versionText = o.metadata.versionText := by
    unfold ObjectMeta.versionText
    rw [version_of_planCreate planned]
  have key : fresh.key = o.key := by
    obtain ⟨-, rfl⟩ := planCreate_eq_ok planned
    exact key_newcomer named ambient.suffix
  have name : fresh.anyName = o.anyName := congrArg ObjectKey.name key
  rw [← version, ← key, ← name, ← h.create_answer ambient (named_of_planCreate planned)]
  unfold create
  rw [planned]
  rfl

/-- A trial of a creation does not look at what is stored, nor at the version that the new object
carries, and the creation in earnest does. So it has the same verdict exactly if the object is
refused for what it is, or is one without a version whose key is free. -/
theorem creation_foretold_iff (policy : WritePolicy) (requests : List (Request k))
    (ns : Option String) {o : Object k} (named : o.metadata.nameText ≠ "") (options : WriteOptions)
    (ambient ambient' : Ambient) :
    let s := after policy (.empty k) requests
    let tried := perform policy ambient ns ((Call.create o options).trying true) s
    let real := perform policy ambient' ns ((Call.create o options).trying false) s
    (Outcome.Agree tried.1 real.1 ↔
      (∃ error, tried.1 = .error error) ∨ o.metadata.versionText = "" ∧ s.view o.key = none)
    ∧ ∀ fresh, tried.1 = .ok (.object fresh) → real.1 =
      if o.metadata.versionText ≠ "" then .error (.badRequest .versionOnCreate)
      else if (s.view o.key).isSome then .error (.alreadyExists k.qualified o.anyName)
      else .ok (.object (Store.entered ambient' (s.revision + 1) fresh)) := by
  intro s tried real
  have tried_eq : tried.1 = (create ambient true o s).1.map .object := perform_create true o options
  have real_eq : real.1 = (create ambient' false o s).1.map .object :=
    perform_create false o options
  have h : s.Indexed := (orderly_after policy requests).indexed
  rw [create_tried] at tried_eq
  cases planned : planCreate ambient.suffix o with
  | error error =>
    rw [planned] at tried_eq
    rw [planCreate_of_named named ambient.suffix ambient'.suffix] at planned
    rw [create_of_refused planned] at real_eq
    rw [tried_eq, real_eq]
    exact ⟨iff_of_true (.error error) (.inl ⟨error, rfl⟩), fun _ ok => by cases ok⟩
  | ok fresh =>
    rw [planned] at tried_eq
    rw [planCreate_of_named named ambient.suffix ambient'.suffix] at planned
    rw [create_of_planned h named planned] at real_eq
    rw [tried_eq, real_eq]
    refine ⟨?_, fun _ ok => ?_⟩
    · by_cases version : o.metadata.versionText = ""
      · cases there : s.view o.key with
        | none =>
          rw [if_neg (not_not_intro version), if_neg (by simp)]
          exact iff_of_true (.ok trivial) (.inr ⟨version, rfl⟩)
        | some old =>
          rw [if_neg (not_not_intro version), if_pos (by simp)]
          refine iff_of_false (by rintro ⟨⟩) ?_
          simp [Except.map]
      · rw [if_pos version]
        refine iff_of_false (by rintro ⟨⟩) ?_
        simp [Except.map, version]
    · cases ok
      split_ifs <;> rfl

/-- What comes of the creation of a cluster beside one that is named "a". -/
def created (dryRun : Bool) (o : Object .cluster) :
    Outcome (Answer .cluster (Watch .cluster)) × Store .cluster :=
  perform {} .plain none ((Call.create o {}).trying dryRun)
    (after {} (.empty .cluster) (clusters ["a"]))

/-- A second cluster is tried and created. -/
theorem creation_foretold_iff_free :
    Outcome.Agree (created true (.bareCluster "b")).1 (created false (.bareCluster "b")).1
      ∧ (created false (.bareCluster "b")).2.toList.map (·.anyName) = ["a", "b"] := by
  have ⟨agree, _⟩ := creation_foretold_iff {} (clusters ["a"]) none (o := .bareCluster "b")
    (by decide) {} .plain .plain
  exact ⟨agree.2 (.inr ⟨by decide, by decide +kernel⟩), by decide +kernel⟩

def refusal {α : Type} (outcome : Outcome α) : Option String := (error? outcome).map (·.message)

theorem refusal_eq_of_agree {α : Type} {outcome outcome' : Outcome α}
    (h : Outcome.Agree outcome outcome') : refusal outcome = refusal outcome' := by
  cases h <;> rfl

def versioned : Object .cluster :=
  (Object.bareCluster "b").mapMeta fun m => { m with resourceVersion := some "1" }

/-- A cluster whose name is taken, and one that carries a version: the trial of each succeeds, and
its creation does not. -/
theorem creation_trials_mislead :
    ¬ Outcome.Agree (created true (.bareCluster "a")).1 (created false (.bareCluster "a")).1
    ∧ ¬ Outcome.Agree (created true versioned).1 (created false versioned).1
    ∧ refusal (created true (.bareCluster "a")).1 = none
    ∧ refusal (created false (.bareCluster "a")).1
      = some "clusters.clusterregistry.k8s.io \"a\" already exists"
    ∧ refusal (created true versioned).1 = none
    ∧ refusal (created false versioned).1
      = some "bad request: resourceVersion should not be set on objects to be created" := by
  refine ⟨mt refusal_eq_of_agree ?_, mt refusal_eq_of_agree ?_, ?_, ?_, ?_, ?_⟩ <;> decide +kernel

end Registry

end FleetRegistry
