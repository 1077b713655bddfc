import FleetRegistry.Proofs.Interleaving.Waiting

/-!
Patches among other calls. A patch reads twice: first the object that its document goes to, then
the one that it replaces. What keeps the two together is the version that the first one leaves in
the patched object; a document that takes it out, or puts in a later one, lets the patch replace an
object that it has not been applied to.
-/
namespace FleetRegistry

variable {k : Kind}

namespace Registry

variable {policy : WritePolicy} {ambient : Ambient} {side : WriteSide} {ns : Option String}
  {name : String} {dryRun : Bool} {α : Type} {f : Object k → α}

theorem updateAtSteps_read {new : Object k} {ns' : Option String} {name' : String}
    {next : Outcome (Object k) → Steps k α}
    (reads : (updateAtSteps policy ambient side ns name dryRun new).map f = .read ns' name' next) :
    (∀ old, (∃ plan, planUpdate policy side name new old = .ok plan
          ∧ next (.ok old) = (planSteps dryRun ns name plan).map f)
        ∨ ∃ error, next (.ok old) = .done (.error error)) ∧
      ∀ error, next (.error error) = (createSteps ambient dryRun new).map f
        ∨ next (.error error) = .done (.error error) := by
  unfold updateAtSteps at reads
  split at reads
  next => cases reads
  next =>
    cases reads
    refine ⟨fun old => ?_, fun error => ?_⟩
    · simp only
      cases planned : planUpdate policy side name new old with
      | error error => exact .inr ⟨error, rfl⟩
      | ok plan => exact .inl ⟨plan, rfl, rfl⟩
    · simp only
      split
      next => exact .inl rfl
      next => exact .inr rfl

theorem patch_steps (policy : WritePolicy) (ambient : Ambient) (ns : Option String) (name : String)
    (document : PatchRequest) (options : WriteOptions) :
    (∃ error, callSteps (k := k) policy ambient ns (.patch name document options)
        = .done (.error error)) ∨
      ∃ side ns', callSteps (k := k) policy ambient ns (.patch name document options)
        = (patchAtSteps policy ambient side ns' name document options.dryRun).map .object := by
  simp only [callSteps, patchSteps]
  cases scope k ns with
  | error error => exact .inl ⟨error, rfl⟩
  | ok ns' =>
    cases document.side with
    | error error => exact .inl ⟨error, rfl⟩
    | ok side => exact .inr ⟨side, ns', rfl⟩

end Registry

/-- Whether the version that a patched object carries ties it to the object that the document went
to, when another reading gives a second one. A patched object without a version is tied to nothing.
-/
def Object.TiedTo (first second new : Object k) : Prop :=
  new.metadata.resourceVersion = first.metadata.resourceVersion
    ∨ (new.metadata.versionText = "" ∧
      second.metadata.resourceVersion = first.metadata.resourceVersion)

/-- How far a patch can be that has read the object its document goes to. -/
inductive Process.Patching (policy : WritePolicy) (ambient : Ambient) (side : WriteSide)
    (ns : Option String) (name : String) (dryRun : Bool) (first new : Object k)
    (p : Process k) : Prop
  | applied (reads : p.reads = [first])
    (rest : p.rest
      = (Registry.updateAtSteps policy ambient side ns name dryRun new).map .object)
  | decided (second : Object k) (plan : Plan k) (reads : p.reads = [second, first])
    (planned : Registry.planUpdate policy side name new second = .ok plan)
    (rest : p.rest = (Registry.planSteps dryRun ns name plan).map .object)
  | creating (reads : p.reads = [])
    (rest : p.rest = (Registry.createSteps ambient dryRun new).map .object)
  | finished (outcome : Outcome (Answer k (Watch k))) (rest : p.rest = .done outcome)

namespace Process.Patching

variable {policy : WritePolicy} {ambient : Ambient} {side : WriteSide} {ns : Option String}
  {name : String} {dryRun : Bool} {first new : Object k} {p : Process k}

theorem within (h : p.Patching policy ambient side ns name dryRun first new) :
    p.rest.Within 1 := by
  cases h with
  | applied _ rest => exact rest ▸ (Registry.updateAtSteps_within new).map _
  | decided _ plan _ _ rest => exact rest ▸ (Registry.planSteps_within 1 plan).map _
  | creating _ rest => exact rest ▸ (Registry.createSteps_within 1 new).map _
  | finished _ rest =>
    rw [rest]
    trivial

theorem of_read (h : p.Patching policy ambient side ns name dryRun first new)
    {ns' : Option String} {name' : String}
    {next : Outcome (Object k) → Steps k (Answer k (Watch k))}
    (reads : p.rest = .read ns' name' next) :
    p.reads = [first] ∧ (Registry.updateAtSteps policy ambient side ns name dryRun new).map .object
      = .read ns' name' next := by
  cases h with
  | applied once rest => exact ⟨once, rest.symm.trans reads⟩
  | decided _ plan _ _ rest =>
    have within : p.rest.Within 0 := rest ▸ (Registry.planSteps_within 0 plan).map _
    rw [reads] at within
    exact within.elim
  | creating _ rest =>
    have within : p.rest.Within 0 := rest ▸ (Registry.createSteps_within 0 new).map _
    rw [reads] at within
    exact within.elim
  | finished _ rest =>
    rw [reads] at rest
    cases rest

theorem of_write (h : p.Patching policy ambient side ns name dryRun first new)
    {w : Store.Write k} {next : Outcome (Object k) → Steps k (Answer k (Watch k))}
    (writes : p.rest = .write w next) :
    (∃ second plan, p.reads = [second, first]
        ∧ Registry.planUpdate policy side name new second = .ok plan) ∨
      ∃ fresh, Registry.planCreate ambient.suffix new = .ok fresh ∧ w = .create ambient fresh := by
  cases h with
  | applied _ rest =>
    rw [writes] at rest
    unfold Registry.updateAtSteps at rest
    split at rest <;> cases rest
  | decided second plan reads planned _ => exact .inl ⟨second, plan, reads, planned⟩
  | creating _ rest =>
    rw [writes] at rest
    unfold Registry.createSteps at rest
    right
    cases planned : Registry.planCreate ambient.suffix new with
    | error error =>
      rw [planned] at rest
      cases rest
    | ok fresh =>
      rw [planned] at rest
      cases dryRun with
      | true => cases rest
      | false =>
        cases rest
        exact ⟨fresh, rfl, rfl⟩
  | finished _ rest =>
    rw [writes] at rest
    cases rest

end Process.Patching

/-- How far a patch can be. -/
inductive Process.PatchStage (policy : WritePolicy) (r : Request k) (name : String)
    (document : PatchRequest) (options : WriteOptions) (p : Process k) : Prop
  | fresh (reads : p.reads = []) (rest : p.rest = r.steps policy)
  | begun (side : WriteSide) (ns : Option String) (first new : Object k)
    (made : Registry.patched document first = .ok new)
    (stage : p.Patching policy r.ambient side ns name options.dryRun first new)
  | finished (outcome : Outcome (Answer k (Watch k))) (rest : p.rest = .done outcome)

namespace System

variable {ι : Type} [DecidableEq ι] {S : System ι k} {log : List (Event k)} {i : ι}
  {policy : WritePolicy} {ambient : Ambient} {side : WriteSide} {ns : Option String}
  {name : String} {dryRun : Bool} {first new : Object k}

theorem patching_step
    (h : (S.processes i).Patching policy ambient side ns name dryRun first new) :
    ((S.step i).processes i).Patching policy ambient side ns name dryRun first new := by
  have within := h.within
  have taken := S.takes_step i
  generalize S.step i = S' at taken
  cases taken with
  | finished => exact h
  | @found _ _ _ o rest =>
    have ⟨once, reads⟩ := h.of_read rest
    rw [resume_processes_self, once]
    rcases (Registry.updateAtSteps_read reads).1 o with ⟨plan, planned, eq⟩ | ⟨error, eq⟩
    · exact .decided o plan rfl planned eq
    · exact .finished _ eq
  | @missed _ _ _ error rest =>
    have ⟨_, reads⟩ := h.of_read rest
    rw [resume_processes_self]
    rcases (Registry.updateAtSteps_read reads).2 error with eq | eq
    · exact .creating rfl eq
    · exact .finished _ eq
  | looked rest =>
    rw [rest] at within
    exact within.elim
  | @wrote _ _ o _ rest =>
    rw [rest] at within
    obtain ⟨a, eq⟩ := within.2 o
    exact .finished (.ok a) (by simp [eq])
  | @refused _ _ error _ rest =>
    rw [rest] at within
    exact .finished (.error error) (by simp [within.1 error])

theorem patchStage_step (policy : WritePolicy) {r : Request k} {document : PatchRequest}
    {options : WriteOptions} (patch : r.call = .patch name document options)
    (h : (S.processes i).PatchStage policy r name document options) :
    ((S.step i).processes i).PatchStage policy r name document options := by
  cases h with
  | begun side ns first new made stage => exact .begun side ns first new made (patching_step stage)
  | finished outcome rest =>
    rw [step_of_done rest]
    exact .finished outcome rest
  | fresh reads rest =>
    unfold Request.steps at rest
    rw [patch] at rest
    rcases Registry.patch_steps (k := k) policy r.ambient r.ns name document options with
      ⟨error, eq⟩ | ⟨side, ns, eq⟩
    · rw [eq] at rest
      rw [step_of_done rest]
      exact .finished _ rest
    · rw [eq] at rest
      have taken := S.takes_step i
      generalize S.step i = S' at taken
      cases taken with
      | @found _ _ _ o reading =>
        rw [rest] at reading
        cases reading
        rw [resume_processes_self, reads]
        cases made : Registry.patched document o with
        | error error => exact .finished (.error error) (by simp [made]; rfl)
        | ok new => exact .begun side ns o new made (.applied rfl (by simp [made]; rfl))
      | @missed _ _ _ error reading =>
        rw [rest] at reading
        cases reading
        rw [resume_processes_self]
        exact .finished (.error error) rfl
      | finished other | looked other | wrote other | refused other =>
        rw [rest] at other
        cases other

theorem eq_iff_tiedTo {second : Object k} {plan : Plan k} (legal : Event.Legal log)
    (held : Event.Held log first) (held' : Event.Held log second)
    (planned : Registry.planUpdate policy side name new second = .ok plan) :
    second = first ↔ Object.TiedTo first second new := by
  have checked : Registry.checkVersion policy name new second = .ok () := by
    unfold Registry.planUpdate at planned
    split at planned
    next => cases planned
    next checked => exact checked
  have based := Registry.checkVersion_eq_ok checked
  constructor
  · rintro rfl
    rcases based with empty | same
    · exact .inr ⟨String.isEmpty_iff.1 empty, rfl⟩
    · exact .inl same
  · intro tied
    refine held'.eq_of_version held legal ?_
    rcases tied with same | ⟨-, same⟩
    · rcases based with empty | same'
      · obtain ⟨n, version⟩ := held.versioned legal
        simp [ObjectMeta.versionText, same, version] at empty
      · exact same'.symm.trans same
    · exact same

theorem patching_of_read {policy : WritePolicy} {requests : List (Request k)}
    {calls : ι → Request k} {name : String} {document : PatchRequest} {options : WriteOptions}
    (patch : (calls i).call = .patch name document options) {before : List ι}
    (read : (((following policy requests calls).run before).processes i).reads = [first])
    (made : Registry.patched document first = .ok new) :
    ∃ side ns, (((following policy requests calls).run before).processes i).Patching policy
      (calls i).ambient side ns name options.dryRun first new := by
  have stage := run_process (following policy requests calls) i (.fresh rfl rfl)
    (fun _ => patchStage_step policy patch) before
  cases stage with
  | fresh reads _ => simp [reads] at read
  | finished outcome rest => exact ⟨.main, none, .finished outcome rest⟩
  | begun side ns first' new' made' stage =>
    cases stage with
    | applied reads rest =>
      obtain rfl : first' = first := List.singleton_inj.1 (reads.symm.trans read)
      obtain rfl : new' = new := Except.ok.inj (made'.symm.trans made)
      exact ⟨side, ns, .applied reads rest⟩
    | decided _ _ reads _ _ => simp [reads] at read
    | creating reads _ => simp [reads] at read
    | finished outcome rest => exact ⟨side, ns, .finished outcome rest⟩

omit [DecidableEq ι] in
theorem Sound.patch_replaces (sound : S.Sound log) (held : Event.Held log first)
    (stage : (S.processes i).Patching policy ambient side ns name dryRun first new)
    {w : Store.Write k} {next : Outcome (Object k) → Steps k (Answer k (Watch k))}
    (rest : (S.processes i).rest = .write w next) {stored : Object k}
    (ok : (w.apply S.store).1 = .ok stored) :
    (∃ second, (S.processes i).reads = [second, first] ∧ w.replaces? = some second.key
        ∧ S.store.view second.key = some second
        ∧ (second = first ↔ Object.TiedTo first second new)) ∨
      ∃ fresh, Registry.planCreate ambient.suffix new = .ok fresh ∧ w = .create ambient fresh := by
  rcases stage.of_write rest with ⟨second, plan, reads, planned⟩ | creates
  · left
    have head : (S.processes i).reads.head? = some second := by rw [reads]; rfl
    have ⟨replaces, there⟩ := sound.there_of_wrote rest head ok
    have held' := (sound.process i).held second (by rw [reads]; exact List.mem_cons_self)
    exact ⟨second, reads, replaces, there,
      eq_iff_tiedTo sound.remembers.legal held held' planned⟩
  · exact .inr creates

end System

theorem Registry.version_of_planCreate {suffix : String} {new fresh : Object k}
    (h : planCreate suffix new = .ok fresh) :
    fresh.metadata.resourceVersion = new.metadata.resourceVersion := by
  unfold planCreate at h
  simp only at h
  split at h
  next =>
    cases h
    show (new.metadata.named suffix).resourceVersion = _
    unfold ObjectMeta.named
    grind
  next => cases h

theorem Store.create_of_versioned (ambient : Ambient) {o : Object k} (s : Store k)
    {version : String} (versioned : o.metadata.resourceVersion = some version)
    (text : version ≠ "") :
    ∃ error, s.create ambient o = (.error error, s) := by
  unfold create
  split
  next => exact ⟨_, rfl⟩
  next =>
    split
    next => exact ⟨_, rfl⟩
    next unversioned => simp [ObjectMeta.versionText, versioned, text] at unversioned

namespace System

variable {ι : Type} [DecidableEq ι] {S : System ι k} {log : List (Event k)} {i : ι}
  {policy : WritePolicy} {ambient : Ambient} {side : WriteSide} {ns : Option String}
  {name : String} {dryRun : Bool} {first new : Object k}

theorem Sound.patch_keeps (sound : S.Sound log) (held : Event.Held log first)
    (stage : (S.processes i).Patching policy ambient side ns name dryRun first new)
    (kept : new.metadata.resourceVersion = first.metadata.resourceVersion)
    (changed later : List ι) (unwritten : i ∉ (S.run changed).written)
    (gone : (S.run changed).store.view first.key ≠ some first) :
    i ∉ (S.run (changed ++ later)).written := by
  -- From the end of the schedule: if the patch wrote at all, it wrote in the last step.
  induction later using List.reverseRecOn with
  | nil => simpa using unwritten
  | append_singleton later j ih =>
    intro written
    rw [← List.append_assoc, run_append] at written
    rcases ((S.run (changed ++ later)).takes_step j).mem_written written with
      before | ⟨-, w, next, o, rest, ok⟩
    · exact ih before
    · obtain ⟨more, now⟩ := sound.run (changed ++ later)
      have stage := run_process S i stage (fun _ => patching_step) (changed ++ later)
      rcases now.patch_replaces (held.append more) stage rest ok with
        ⟨second, -, -, there, same⟩ | ⟨fresh, planned, rfl⟩
      · obtain rfl := same.2 (.inl kept)
        exact gone (sound.there_between held (List.prefix_append changed later) there)
      · obtain ⟨n, version⟩ := held.versioned sound.remembers.legal
        have versioned := (Registry.version_of_planCreate planned).trans (kept.trans version)
        obtain ⟨error, failed⟩ := Store.create_of_versioned ambient
          (S.run (changed ++ later)).store versioned Nat.repr_ne_empty
        simp [Store.Write.apply, failed] at ok

end System

/-- A patch has read the object that its document goes to. If its write replaces an object, that is
the second one that it read; it is the first one exactly if the patched object is tied to it by its
version. If the document leaves the version as it is, a change of the object before the patch has
written keeps the patch from writing at all. -/
theorem patch_conflicts {ι : Type} [DecidableEq ι] (policy : WritePolicy)
    (requests : List (Request k)) (calls : ι → Request k) (i : ι) {name : String}
    {document : PatchRequest} {options : WriteOptions}
    (patch : (calls i).call = .patch name document options) (before : List ι)
    {first new : Object k}
    (read : (((System.following policy requests calls).run before).processes i).reads = [first])
    (made : Registry.patched document first = .ok new) :
    (∀ (later : List ι) (w : Store.Write k)
        (next : Outcome (Object k) → Steps k (Answer k (Watch k))) (key : ObjectKey)
        (stored : Object k),
      let S := (System.following policy requests calls).run (before ++ later)
      (S.processes i).rest = .write w next → w.replaces? = some key →
      (w.apply S.store).1 = .ok stored →
      ∃ second, (S.processes i).reads = [second, first] ∧ S.store.view key = some second
        ∧ (second = first ↔ Object.TiedTo first second new)) ∧
    (new.metadata.resourceVersion = first.metadata.resourceVersion →
      ∀ changed later : List ι,
        let S := (System.following policy requests calls).run (before ++ changed)
        i ∉ S.written → S.store.view first.key ≠ some first → i ∉ (S.run later).written) := by
  obtain ⟨log, sound⟩ := System.sound_following policy requests calls
  obtain ⟨more, sound⟩ := sound.run before
  obtain ⟨side, ns, stage⟩ := System.patching_of_read patch read made
  have held := (sound.process i).held first (by rw [read]; exact List.mem_cons_self)
  constructor
  · intro later w next key stored
    simp only [System.run_append]
    intro rest replaces ok
    obtain ⟨rest', now⟩ := sound.run later
    have stage := System.run_process _ i stage (fun _ => System.patching_step) later
    rcases now.patch_replaces (held.append rest') stage rest ok with
      ⟨second, reads, same, there, tied⟩ | ⟨fresh, -, rfl⟩
    · rw [replaces] at same
      cases same
      exact ⟨second, reads, there, tied⟩
    · cases replaces
  · intro kept changed later
    simp only [System.run_append]
    intro unwritten gone
    have silent := sound.patch_keeps held stage kept changed later unwritten gone
    rwa [System.run_append] at silent

/-! ## A patch and a change of one cluster -/

/-- A document that adds an annotation and says what becomes of the version. -/
def noteWithVersion (version : Json) : PatchRequest where
  type := .merge
  document := .obj [("metadata", .obj [
    ("resourceVersion", version), ("annotations", .obj [("note", .str "patched")])])]

def patchAndChange (version : Json) : Bool → Request .cluster
  | false => .plain (.patch "a" (noteWithVersion version) {})
  | true => .plain (.update .main ((Object.bareCluster "a").mapMeta fun m =>
      { m with labels := some (.ofList [("tier", "one")]) }) {})

def patchWithChange (version : Json) : System Bool .cluster :=
  .following {} [.plain (.create (.bareCluster "a") {})] (patchAndChange version)

theorem patchWithChange_reads :
    ∀ version ∈ [Json.str "1", Json.str "2", Json.null],
      ∃ first, (((patchWithChange version).run [false]).processes false).reads = [first]
        ∧ first.key = ⟨"", "a"⟩ ∧ first.metadata.resourceVersion = some "1" := by
  have computed : ∀ version ∈ [Json.str "1", Json.str "2", Json.null],
      (((patchWithChange version).run [false]).processes false).reads.map
        (fun o => (o.key, o.metadata.resourceVersion)) = [(⟨"", "a"⟩, some "1")] := by
    decide +kernel
  intro version mem
  obtain ⟨first, read, facts⟩ := List.map_eq_singleton_iff.1 (computed version mem)
  exact ⟨first, read, Prod.mk.inj facts⟩

theorem patchWithChange_changes :
    ∀ version ∈ [Json.str "1", Json.str "2", Json.null], ∀ schedule ∈ [[false, true, true],
        [false, true, true, false]],
      (((patchWithChange version).run schedule).store.view ⟨"", "a"⟩).map
        (·.metadata.resourceVersion) = some (some "2") := by
  decide +kernel

/-- The patch has read the cluster that its document goes to when the other call changes it. If the
document leaves the version as it is, the patch writes nothing. -/
theorem patch_conflicts_change :
    false ∉ ((patchWithChange (.str "1")).run [false, true, true, false, false]).written := by
  obtain ⟨first, read, key, version⟩ := patchWithChange_reads (.str "1") (by simp)
  have computed : (((patchWithChange (.str "1")).run [false]).processes false).reads.map
      (fun o => (Registry.patched (noteWithVersion (.str "1")) o).toOption.map
        (·.metadata.resourceVersion)) = [some (some "1")] := by decide +kernel
  rw [read, List.map_singleton, List.singleton_inj] at computed
  obtain ⟨new, made, kept⟩ := Option.map_eq_some_iff.1 computed
  have silent := (patch_conflicts {} _ (patchAndChange (.str "1")) false rfl [false] read
    (Outcome.toOption_eq_some.1 made)).2 (kept.trans version.symm) [true, true] [false, false]
  refine silent (by decide +kernel) fun there => ?_
  have now := patchWithChange_changes (.str "1") (by simp) [false, true, true] (by simp)
  have there : ((patchWithChange (.str "1")).run [false, true, true]).store.view ⟨"", "a"⟩
      = some first := key ▸ there
  rw [there, Option.map_some, version] at now
  simp at now

/-- The cluster is changed after the patch has read it, and yet the patch writes and undoes the
change. -/
def UndoesChange (version : Json) : Prop :=
  let S := (patchWithChange version).run [false, true, true, false]
  ∃ first, (((patchWithChange version).run [false]).processes false).reads = [first]
    ∧ false ∉ S.written ∧ S.store.view first.key ≠ some first
    ∧ (S.step false).written = [true, false]
    ∧ ((S.step false).store.view first.key).map (·.metadata.labels) = some none

theorem undoesChange_of_mem :
    ∀ version ∈ [Json.null, Json.str "2"], UndoesChange version := by
  have computed : ∀ version ∈ [Json.null, Json.str "2"],
      let S := (patchWithChange version).run [false, true, true, false]
      S.written = [true] ∧ (S.step false).written = [true, false]
        ∧ ((S.step false).store.view ⟨"", "a"⟩).map (·.metadata.labels) = some none := by
    decide +kernel
  intro version mem
  have mem' : version ∈ [Json.str "1", Json.str "2", Json.null] := by
    rcases List.mem_cons.1 mem with rfl | mem
    · simp
    · simp [List.mem_singleton.1 mem]
  obtain ⟨first, read, key, number⟩ := patchWithChange_reads version mem'
  have ⟨before, after, unlabelled⟩ := computed version mem
  have unwritten : false ∉ ((patchWithChange version).run [false, true, true, false]).written := by
    rw [before]
    decide
  have now := patchWithChange_changes version mem' [false, true, true, false] (by simp)
  refine ⟨first, read, unwritten, fun there => ?_, after, key ▸ unlabelled⟩
  rw [key] at there
  rw [there, Option.map_some, number] at now
  simp at now

/-- A document that takes the version out, or puts in the one that the change leads to, lets the
patch undo the change. -/
theorem patch_undoes_change : UndoesChange .null ∧ UndoesChange (.str "2") :=
  ⟨undoesChange_of_mem .null (by simp), undoesChange_of_mem (.str "2") (by simp)⟩

end FleetRegistry
