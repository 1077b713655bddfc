import FleetRegistry.Proofs.Registry.Changes

/-!
Calls about one stored object. Such a call makes its plan from what it finds under one key and
carries it out there: every other object stays as it is and where it is.
-/
namespace FleetRegistry

variable {k : Kind}

/-- The key of the stored object that a call is about: an update says it in the object that it
submits, a patch and a deletion in their address. -/
def Call.target? (ns : Option String) : Call k → Option ObjectKey
  | .update _ new _ =>
    (Registry.scope k new.metadata.ns).toOption.map (.ofAddress k · new.anyName)
  | .patch name .. | .delete name _ => (Registry.scope k ns).toOption.map (.ofAddress k · name)
  | .get _ | .list _ | .watch _ | .create .. | .deleteCollection .. => none

/-! ## Plans, carried out -/

namespace Plan

def leaves (revision : Nat) (old : Object k) : Plan k → Option (Object k)
  | keep _ => some old
  | put final => some (final.withVersion revision)
  | remove .. => none

def yields (revision : Nat) (old : Object k) : Plan k → Object k
  | keep o => o
  | put final => final.withVersion revision
  | remove .. => old.withVersion revision

def writes : Plan k → Nat
  | keep _ => 0
  | put _ | remove .. => 1

end Plan

namespace Registry

variable {s : Store k} {ns : Option String} {name : String} {dryRun : Bool} {old : Object k}

/-- What is left of a store, and answered, once a plan for the object under a key is concluded. -/
structure Concludes (dryRun : Bool) (plan : Plan k) (old : Object k) (s : Store k)
    (result : Outcome (Object k) × Store k) : Prop where
  answer : result.1 = .ok (if dryRun then plan.object else plan.yields (s.revision + 1) old)
  objects : result.2.objects = Store.placing old.key
    (if dryRun then some old else plan.leaves (s.revision + 1) old) s.objects
  view : result.2.view
    = Function.update s.view old.key (if dryRun then some old else plan.leaves (s.revision + 1) old)
  revision : result.2.revision = s.revision + if dryRun then 0 else plan.writes

theorem checkPreconditions_own (o : Object k) :
    checkPreconditions (some { resourceVersion := o.metadata.resourceVersion }) o = .ok () := by
  cases version : o.metadata.resourceVersion <;>
    simp [checkPreconditions, Preconditions.conflict?, Preconditions.conflict?.versionConflict?,
      ObjectMeta.versionText, version]

theorem conclude_concludes {plan : Plan k} (h : s.Indexed)
    (there : s.view (.ofAddress k ns name) = some old) (based : plan.BasedOn old) :
    Concludes dryRun plan old s (plan.conclude dryRun ns name s) := by
  have key := (h.view_eq_some_iff.1 there).2
  have before : s.view old.key = some old := key ▸ there
  have objects := h.placing_view old.key
  rw [before] at objects
  have view : Function.update s.view old.key (some old) = s.view := by
    rw [← before, Function.update_eq_self]
  unfold Plan.conclude
  cases dryRun with
  | true => exact ⟨rfl, objects.symm, view.symm, rfl⟩
  | false =>
    cases plan with
    | keep o => exact ⟨rfl, objects.symm, view.symm, rfl⟩
    | put final =>
      have ⟨_, same, version⟩ := based
      have here : s.view final.key = some old := same ▸ before
      obtain ⟨place, mem, eq⟩ := Store.update_of_current h here (.inr version)
      simp only [Bool.false_eq_true, if_false, Plan.carryOut, eq]
      have keys : (final.withVersion (s.revision + 1)).key = old.key := same
      refine ⟨rfl, ?_, ?_, Store.record_revision ..⟩
      · rw [Store.record_objects, h.replaced_objects mem]
        rfl
      · rw [Store.view_record, h.view_replaced mem keys, keys]
        rfl
    | remove o version =>
      obtain rfl : version = old.metadata.resourceVersion := based
      obtain ⟨place, mem, _, eq⟩ := Store.delete_of_met h there (checkPreconditions_own old)
      simp only [Bool.false_eq_true, if_false, Plan.carryOut, eq]
      refine ⟨rfl, ?_, ?_, Store.record_revision ..⟩
      · rw [Store.record_objects, h.removed_objects mem]
        rfl
      · rw [Store.view_record, h.view_removed mem]
        rfl

/-! ## What such a call comes down to -/

/-- What a call about one stored object comes down to: where it looks, and what it plans for what
it finds there. -/
structure Edit (k : Kind) where
  space : Option String
  name : String
  dryRun : Bool
  /-- Whether it is a deletion, which is answered with what has become of the object. -/
  deletes : Bool
  plan (now : Instant) (found : Outcome (Object k)) : Outcome (Plan k)
  grounded : ∀ {now : Instant} {found : Outcome (Object k)} {plan' : Plan k},
    plan now found = .ok plan' → ∃ old, found = .ok old ∧ (old.IsNamed → plan'.BasedOn old)

namespace Edit

variable {now : Instant} {e : Edit k}

def key (e : Edit k) : ObjectKey := .ofAddress k e.space e.name

def answer (e : Edit k) (plan : Plan k) (o : Object k) : Answer k (Watch k) :=
  if e.deletes then .deletion (plan.deletion o) else .object o

def run (now : Instant) (e : Edit k) (s : Store k) : Outcome (Answer k (Watch k)) × Store k :=
  match e.plan now (s.get e.space e.name) with
  | .error error => (.error error, s)
  | .ok plan => answering (e.answer plan) (plan.conclude e.dryRun e.space e.name s)

theorem run_of_refused {error : RegistryError}
    (refused : e.plan now (s.get e.space e.name) = .error error) :
    e.run now s = (.error error, s) := by
  unfold run
  rw [refused]

/-- How an edit can end: it is refused before anything is changed, or its plan is concluded. -/
inductive Ends (now : Instant) (e : Edit k) (s : Store k) :
    Outcome (Answer k (Watch k)) × Store k → Prop
  | refused {error : RegistryError}
    (planned : e.plan now (s.get e.space e.name) = .error error) : Ends now e s (.error error, s)
  | done {old : Object k} {plan : Plan k} {result : Outcome (Object k) × Store k}
    (there : s.view e.key = some old) (key : old.key = e.key)
    (planned : e.plan now (s.get e.space e.name) = .ok plan)
    (concludes : Concludes e.dryRun plan old s result) :
    Ends now e s (answering (e.answer plan) result)

theorem ends (h : s.Orderly) (now : Instant) (e : Edit k) : e.Ends now s (e.run now s) := by
  unfold run
  split
  next error planned => exact .refused planned
  next plan planned =>
    obtain ⟨old, found, based⟩ := e.grounded planned
    have there : s.view e.key = some old := Store.get_eq_ok.1 found
    have key := (h.indexed.view_eq_some_iff.1 there).2
    exact .done there key planned
      (conclude_concludes h.indexed there (based (h.named _ _ there)))

theorem Ends.entry {result : Outcome (Answer k (Watch k)) × Store k} (h : s.Indexed)
    (ends : e.Ends now s result) {place : Nat} (stored : (place, old) ∈ s.objects) :
    ∃ left, (∀ o, (place, o) ∈ result.2.objects ↔ left = some o)
      ∧ (left = some old ∨ ∃ plan, e.plan now (.ok old) = .ok plan
        ∧ left = plan.leaves (s.revision + 1) old) := by
  cases ends with
  | refused => exact ⟨some old, fun _ => h.mem_at_iff stored, .inl rfl⟩
  | @done found plan result there key planned concludes =>
    simp only [answering, concludes.objects, h.mem_placing_at stored]
    refine ⟨_, fun _ => Iff.rfl, ?_⟩
    split
    next same =>
      have here := h.view_eq_some_iff.2 ⟨⟨place, stored⟩, same.trans key⟩
      obtain rfl : found = old := Option.some.inj (there.symm.trans here)
      have read : s.get e.space e.name = .ok found := Store.get_eq_ok.2 there
      split
      next => exact .inl rfl
      next => exact .inr ⟨plan, read ▸ planned, rfl⟩
    next => exact .inl rfl

end Edit

def planUpdateAt (policy : WritePolicy) (side : WriteSide) (name : String) (new : Object k)
    (found : Outcome (Object k)) : Outcome (Plan k) :=
  if name.isEmpty then .error (.badRequest .nameRequired)
  else found.bind (planUpdate policy side name new)

theorem planUpdateAt_eq_ok {policy : WritePolicy} {side : WriteSide} {new : Object k}
    {found : Outcome (Object k)} {plan : Plan k}
    (h : planUpdateAt policy side name new found = .ok plan) :
    ∃ old, found = .ok old ∧ planUpdate policy side name new old = .ok plan := by
  unfold planUpdateAt at h
  split at h
  next => cases h
  next => exact Outcome.bind_eq_ok.1 h

def planPatch (policy : WritePolicy) (name : String) (document : PatchRequest)
    (found : Outcome (Object k)) : Outcome (Plan k) :=
  document.side.bind fun side => found.bind fun current =>
    (patched document current).bind fun new => planUpdateAt policy side name new found

theorem planPatch_eq_ok {policy : WritePolicy} {document : PatchRequest}
    {found : Outcome (Object k)} {plan : Plan k}
    (h : planPatch policy name document found = .ok plan) :
    ∃ side new old, document.side = .ok side ∧ found = .ok old
      ∧ planUpdate policy side name new old = .ok plan := by
  obtain ⟨side, sided, h⟩ := Outcome.bind_eq_ok.1 h
  obtain ⟨current, -, h⟩ := Outcome.bind_eq_ok.1 h
  obtain ⟨new, -, h⟩ := Outcome.bind_eq_ok.1 h
  obtain ⟨old, found, planned⟩ := planUpdateAt_eq_ok h
  exact ⟨side, new, old, sided, found, planned⟩

namespace Edit

def ofUpdate (policy : WritePolicy) (side : WriteSide) (new : Object k) (options : WriteOptions)
    (space : Option String) : Edit k where
  space := space
  name := new.anyName
  dryRun := options.dryRun
  deletes := false
  plan _ found := planUpdateAt policy side new.anyName new found
  grounded planned :=
    have ⟨old, found, planned⟩ := planUpdateAt_eq_ok planned
    ⟨old, found, fun named => planUpdate_basedOn named planned⟩

def ofPatch (policy : WritePolicy) (name : String) (document : PatchRequest)
    (options : WriteOptions) (space : Option String) : Edit k where
  space := space
  name := name
  dryRun := options.dryRun
  deletes := false
  plan _ found := planPatch policy name document found
  grounded planned :=
    have ⟨_, _, old, _, found, planned⟩ := planPatch_eq_ok planned
    ⟨old, found, fun named => planUpdate_basedOn named planned⟩

def ofDelete (name : String) (options : DeleteOptions) (space : Option String) : Edit k where
  space := space
  name := name
  dryRun := options.dryRun
  deletes := true
  plan now found := found.bind (planDelete now options)
  grounded planned :=
    have ⟨old, found, planned⟩ := Outcome.bind_eq_ok.1 planned
    ⟨old, found, fun named => planDelete_basedOn named planned⟩

end Edit

end Registry

namespace Call

open Registry

def edit? (policy : WritePolicy) (ns : Option String) : Call k → Option (Edit k)
  | .update side new options =>
    (scope k new.metadata.ns).toOption.map (.ofUpdate policy side new options)
  | .patch name document options =>
    (scope k ns).toOption.map (.ofPatch policy name document options)
  | .delete name options => (scope k ns).toOption.map (.ofDelete name options)
  | .get _ | .list _ | .watch _ | .create .. | .deleteCollection .. => none

theorem edit?_of_target {ns : Option String} {call : Call k} {key : ObjectKey}
    (aimed : call.target? ns = some key) (policy : WritePolicy) :
    ∃ e, call.edit? policy ns = some e ∧ e.key = key := by
  cases call <;> simp only [target?, reduceCtorEq, Option.map_eq_some_iff] at aimed <;>
    obtain ⟨space, inScope, rfl⟩ := aimed <;>
    exact ⟨_, Option.map_eq_some_iff.2 ⟨space, inScope, rfl⟩, rfl⟩

end Call

namespace Registry

variable {policy : WritePolicy} {ambient : Ambient} {ns space : Option String} {s : Store k}
  {side : WriteSide} {new : Object k} {options : WriteOptions}

theorem updateAt_eq (off : policy.createOnUpdate = false) (name : String) (dryRun : Bool) :
    updateAt policy ambient side space name dryRun new s
      = match planUpdateAt policy side name new (s.get space name) with
        | .error error => (.error error, s)
        | .ok plan => plan.conclude dryRun space name s := by
  unfold updateAt planUpdateAt
  split
  next => rfl
  next =>
    cases s.get space name with
    | error error => simp [off, Except.bind]
    | ok old => rfl

theorem patch_eq (off : policy.createOnUpdate = false) (inScope : scope k ns = .ok space)
    (name : String) (document : PatchRequest) (dryRun : Bool) :
    patch policy ambient ns name document dryRun s
      = match planPatch policy name document (s.get space name) with
        | .error error => (.error error, s)
        | .ok plan => plan.conclude dryRun space name s := by
  simp only [patch, inScope, planPatch]
  cases document.side with
  | error error => rfl
  | ok side =>
    unfold patchAt
    cases found : s.get space name with
    | error error => rfl
    | ok current =>
      simp only [Except.bind]
      cases patched document current with
      | error error => rfl
      -- Nothing is written before the second read, so it finds what the first one found.
      | ok new => simp only [updateAt_eq off, found]

theorem perform_update (off : policy.createOnUpdate = false)
    (inScope : scope k new.metadata.ns = .ok space) :
    perform policy ambient ns (.update side new options) s
      = (Edit.ofUpdate policy side new options space).run ambient.now s := by
  simp only [perform, update, inScope, updateAt_eq off]
  unfold Edit.run
  dsimp only [Edit.ofUpdate]
  split <;> rfl

theorem perform_patch (off : policy.createOnUpdate = false) {name : String}
    {document : PatchRequest} (inScope : scope k ns = .ok space) :
    perform policy ambient ns (.patch name document options) s
      = (Edit.ofPatch policy name document options space).run ambient.now s := by
  simp only [perform, patch_eq off inScope]
  unfold Edit.run
  dsimp only [Edit.ofPatch]
  split <;> rfl

theorem perform_delete {name : String} {options : DeleteOptions}
    (inScope : scope k ns = .ok space) :
    perform policy ambient ns (.delete name options) s
      = (Edit.ofDelete name options space).run ambient.now s := by
  simp only [perform, delete, inScope]
  unfold deleteAt Edit.run
  dsimp only [Edit.ofDelete]
  cases s.get space name with
  | error error => rfl
  | ok old =>
    simp only [Except.bind]
    cases planDelete ambient.now options old with
    | error error => rfl
    | ok plan =>
      simp only
      rcases plan.conclude options.dryRun space name s with ⟨_ | _, _⟩ <;> rfl

/-- Unless updates may create, a call about one stored object is what it comes down to. -/
theorem perform_edit (off : policy.createOnUpdate = false) {call : Call k} {e : Edit k}
    (edits : call.edit? policy ns = some e) :
    perform policy ambient ns call s = e.run ambient.now s := by
  cases call <;> simp only [Call.edit?, reduceCtorEq, Option.map_eq_some_iff] at edits
  case update =>
    obtain ⟨space, inScope, rfl⟩ := edits
    exact perform_update off (Outcome.toOption_eq_some.1 inScope)
  case patch =>
    obtain ⟨space, inScope, rfl⟩ := edits
    exact perform_patch off (Outcome.toOption_eq_some.1 inScope)
  case delete =>
    obtain ⟨space, inScope, rfl⟩ := edits
    exact perform_delete (Outcome.toOption_eq_some.1 inScope)

end Registry

end FleetRegistry
