import FleetRegistry.Proofs.Registry.Edits
import FleetRegistry.Proofs.Registry.Lifecycle

/-!
Writes of an object that nobody has deleted. The marks of a deletion are taken from the stored
object only once it has them. Until then a write of the declared side brings its own: it can begin a
deletion, and an object that waits for nothing is gone at once.
-/
namespace FleetRegistry

variable {k : Kind}

namespace Registry

variable {policy : WritePolicy} {ambient : Ambient} {side : WriteSide} {ns : Option String}
  {name : String} {dryRun : Bool} {s : Store k} {old new : Object k}

theorem conclude_view {plan : Plan k} (h : s.Indexed)
    (there : s.view (.ofAddress k ns name) = some old) (based : plan.BasedOn old) :
    (plan.conclude dryRun ns name s).2.view old.key =
      if dryRun then some old else plan.leaves (s.revision + 1) old := by
  rw [(conclude_concludes h there based).view, Function.update_self]

theorem completed_of_live (live : old.metadata.isDeleting = false) :
    (completed new old).metadata.deletionMarks = new.metadata.deletionMarks := by
  have none : old.metadata.deletionTimestamp = none := by
    simpa [ObjectMeta.isDeleting] using live
  simp [completed, Object.mapMeta, ObjectMeta.deletionMarks, live, none]

/-- What a decided change leaves of the marks of a deletion: an object that is to be deleted and
waits for nothing is gone. -/
def marksOf (final : Object k) : Option (Option Instant × Option Int64) :=
  if final.metadata.isDeleting = true ∧ final.metadata.finalizerList = [] then none
  else some final.metadata.deletionMarks

/-- The marks of a deletion under the key of an object that nobody has deleted, after a write of one
of its sides. -/
def marksAfter (dryRun : Bool) (side : WriteSide) (new old : Object k) :
    Option (Option Instant × Option Int64) :=
  if dryRun = true ∨ side = .status then some old.metadata.deletionMarks else marksOf new

theorem marksOf_of_live (live : old.metadata.isDeleting = false) :
    marksOf old = some old.metadata.deletionMarks := by simp [marksOf, live]

theorem marksOf_congr {final : Object k}
    (marks : final.metadata.deletionMarks = new.metadata.deletionMarks)
    (finalizers : final.metadata.finalizerList = new.metadata.finalizerList) :
    marksOf final = marksOf new := by
  unfold marksOf
  rw [ObjectMeta.isDeleting_congr marks, finalizers, marks]

theorem marksAfter_eq_some_iff (live : old.metadata.isDeleting = false) :
    marksAfter dryRun side new old = some old.metadata.deletionMarks
      ↔ dryRun = true ∨ side = .status
        ∨ new.metadata.deletionMarks = old.metadata.deletionMarks := by
  rw [← or_assoc]
  unfold marksAfter
  by_cases unreached : dryRun = true ∨ side = .status
  · simp [unreached]
  · rw [if_neg unreached, or_iff_right unreached]
    constructor
    · intro kept
      unfold marksOf at kept
      split at kept
      next => cases kept
      next => exact Option.some.inj kept
    · intro same
      have still : new.metadata.isDeleting = false :=
        (ObjectMeta.isDeleting_congr same).trans live
      rw [marksOf_of_live still, same]

theorem planChange_marks {final : Object k} (live : old.metadata.isDeleting = false)
    (revision : Nat) :
    ((planChange final old).leaves revision old).map (·.metadata.deletionMarks)
      = marksOf final := by
  unfold planChange
  by_cases same : final = old
  · rw [if_pos same, same, marksOf_of_live live]
    rfl
  · rw [if_neg same]
    unfold marksOf
    simp only [Bool.and_eq_true, List.isEmpty_iff]
    split <;> rfl

theorem updateAt_marks (h : s.Orderly) (there : s.view (.ofAddress k ns name) = some old)
    (live : old.metadata.isDeleting = false) {o : Object k}
    (ok : (updateAt policy ambient side ns name dryRun new s).1 = .ok o) :
    ((updateAt policy ambient side ns name dryRun new s).2.view old.key).map
      (·.metadata.deletionMarks) = marksAfter dryRun side new old := by
  unfold updateAt at ok ⊢
  rw [Store.get_eq_ok.2 there] at ok ⊢
  split at ok
  next => cases ok
  next named =>
    rw [if_neg named]
    dsimp only at ok ⊢
    split at ok
    next => cases ok
    next plan planned =>
      have based := planUpdate_basedOn (h.named _ _ there) planned
      have ⟨_, _, decided⟩ := planUpdate_eq_ok planned
      rw [conclude_view h.indexed there based]
      unfold marksAfter
      cases dryRun with
      | true => simp
      | false =>
        subst decided
        simp only [Bool.false_eq_true, false_or, if_false]
        rw [planChange_marks live]
        cases side with
        | main => exact marksOf_congr (completed_of_live live) rfl
        | status => exact (marksOf_congr rfl rfl).trans (marksOf_of_live live)

/-! ## Calls -/

inductive Writes (ns : Option String) (key : ObjectKey) : Call k → Prop
  | update {space : Option String} (side : WriteSide) (new : Object k) (options : WriteOptions)
    (inScope : scope k new.metadata.ns = .ok space)
    (addressed : key = .ofAddress k space new.anyName) : Writes ns key (.update side new options)
  | patch {space : Option String} (name : String) (document : PatchRequest)
    (options : WriteOptions) (inScope : scope k ns = .ok space)
    (addressed : key = .ofAddress k space name) : Writes ns key (.patch name document options)

/-- The side of a stored object that a call writes, and what it submits for it. -/
inductive Submits (old : Object k) : Call k → WriteSide → Object k → Prop
  | update (side : WriteSide) (new : Object k) (options : WriteOptions) :
    Submits old (.update side new options) side new
  | patch {side : WriteSide} {new : Object k} (name : String) (document : PatchRequest)
    (options : WriteOptions) (sided : document.side = .ok side)
    (made : patched document old = .ok new) : Submits old (.patch name document options) side new

theorem answering_eq_ok {α : Type} {f : α → Answer k (Watch k)} {result : Outcome α × Store k}
    {answer : Answer k (Watch k)} (ok : (answering f result).1 = .ok answer) :
    ∃ a, result.1 = .ok a := by
  unfold answering at ok
  cases eq : result.1 with
  | error error => simp [eq, Except.map] at ok
  | ok a => exact ⟨a, rfl⟩

theorem patch_submits {space : Option String} (inScope : scope k ns = .ok space)
    (there : s.view (.ofAddress k space name) = some old) {document : PatchRequest} {o : Object k}
    (ok : (patch policy ambient ns name document dryRun s).1 = .ok o) :
    ∃ side new, document.side = .ok side ∧ patched document old = .ok new
      ∧ patch policy ambient ns name document dryRun s
        = updateAt policy ambient side space name dryRun new s := by
  unfold patch patchAt at *
  simp only [inScope, Store.get_eq_ok.2 there] at ok ⊢
  split at ok
  next => cases ok
  next side sided =>
    split at ok
    next => cases ok
    next new made => exact ⟨side, new, sided, made, rfl⟩

theorem perform_marks (h : s.Orderly) (stored : s.view old.key = some old)
    (live : old.metadata.isDeleting = false) {call : Call k} (writes : Writes ns old.key call)
    {answer : Answer k (Watch k)} (ok : (perform policy ambient ns call s).1 = .ok answer) :
    ∃ side new, Submits old call side new
      ∧ ((perform policy ambient ns call s).2.view old.key).map (·.metadata.deletionMarks)
        = marksAfter call.dryRun side new old := by
  cases writes with
  | @update space side new options inScope addressed =>
    obtain ⟨o, ok⟩ := answering_eq_ok ok
    have same : update policy ambient side options.dryRun new s
        = updateAt policy ambient side space new.anyName options.dryRun new s := by
      simp only [update, inScope]
    rw [same] at ok
    refine ⟨side, new, .update side new options, ?_⟩
    simp only [perform, answering, same]
    exact updateAt_marks h (addressed ▸ stored) live ok
  | @patch space name document options inScope addressed =>
    obtain ⟨o, ok⟩ := answering_eq_ok ok
    have there : s.view (.ofAddress k space name) = some old := addressed ▸ stored
    obtain ⟨side, new, sided, made, same⟩ := patch_submits inScope there ok
    rw [same] at ok
    refine ⟨side, new, .patch name document options sided made, ?_⟩
    simp only [perform, answering, same]
    exact updateAt_marks h there live ok

/-- After any calls, an update or a patch of a stored object that nobody has deleted leaves the
marks of a deletion as it submits them, unless it is only tried or is about the observed side. So it
can begin a deletion, and takes the object out if that has no finalizers; and it leaves the object
there with its marks exactly if it submits the marks that are stored. -/
theorem live_object_written (policy : WritePolicy) (requests : List (Request k))
    (ambient : Ambient) (ns : Option String) (call : Call k) {old : Object k}
    {answer : Answer k (Watch k)} :
    let s := after policy (.empty k) requests
    let s' := (perform policy ambient ns call s).2
    old ∈ s.toList → old.metadata.isDeleting = false → Writes ns old.key call →
    (perform policy ambient ns call s).1 = .ok answer →
    ∃ side new, Submits old call side new
      ∧ (s'.view old.key).map (·.metadata.deletionMarks) = marksAfter call.dryRun side new old
      ∧ ((s'.view old.key).map (·.metadata.deletionMarks) = some old.metadata.deletionMarks
        ↔ call.dryRun = true ∨ side = .status
          ∨ new.metadata.deletionMarks = old.metadata.deletionMarks) := by
  intro s s' stored live writes ok
  have h : s.Orderly := orderly_after policy requests
  obtain ⟨⟨place, _⟩, mem, rfl⟩ := List.mem_map.1 stored
  have there := h.indexed.view_eq_some_iff.2 ⟨⟨place, mem⟩, rfl⟩
  obtain ⟨side, new, submits, marks⟩ := perform_marks h there live writes ok
  refine ⟨side, new, submits, marks, ?_⟩
  rw [marks]
  exact marksAfter_eq_some_iff live

/-! ## A deletion begun by an update -/

/-- A cluster with some finalizers, as one who updates it might say that it is being deleted. -/
def saidDeleted (finalizers : List String) (since : Option Instant) (grace : Option Int64) :
    Object .cluster :=
  (Object.bareCluster "a").mapMeta fun m =>
    { m with
      finalizers := some finalizers
      deletionTimestamp := since
      deletionGracePeriodSeconds := grace }

def beforeUpdate (finalizers : List String) : Store .cluster :=
  after {} (.empty .cluster) [.plain (.create (saidDeleted finalizers none none) {})]

/-- An update begins the deletion of a cluster that waits for a finalizer. -/
theorem live_object_written_begun :
    let s := beforeUpdate ["example.com/hold"]
    let said := saidDeleted ["example.com/hold"] (some Ambient.plain.now) none
    let s' := (perform {} .plain none (.update .main said {}) s).2
    (s'.view ⟨"", "a"⟩).map (·.metadata.deletionMarks) = some (some Ambient.plain.now, none) := by
  intro s said s'
  have there : ∃ old ∈ s.toList, old.key = ⟨"", "a"⟩
      ∧ old.metadata.deletionMarks = (none, none) := by decide +kernel
  obtain ⟨old, stored, key, marks⟩ := there
  have ok : ((perform {} .plain none (.update .main said {}) s).1).toOption.isSome = true := by
    decide +kernel
  obtain ⟨answer, ok⟩ := Option.isSome_iff_exists.1 ok
  have live : old.metadata.isDeleting = false :=
    congrArg (fun marks => marks.1.isSome) marks
  have writes : Writes none old.key (.update .main said {}) := .update _ _ _ rfl key
  obtain ⟨side, new, submits, left, -⟩ := live_object_written {} _ .plain none
    (.update .main said {}) stored live writes (Outcome.toOption_eq_some.1 ok)
  rw [key] at left
  cases submits
  exact left

def storedMarks (s : Store .cluster) : Option (Option Instant × Option Int64) :=
  (s.view ⟨"", "a"⟩).map (·.metadata.deletionMarks)

/-- The marks of the cluster before and after a call, and whether the call succeeds. -/
def marksAround (finalizers : List String) (call : Call .cluster) :
    Option (Option Instant × Option Int64) × Bool × Option (Option Instant × Option Int64) :=
  let result := perform {} .plain none call (beforeUpdate finalizers)
  (storedMarks (beforeUpdate finalizers), result.1.isOk, storedMarks result.2)

/-- An update that takes out a cluster that nobody has deleted, a patch that does so, an update that
begins its deletion, and one that changes its time of grace. -/
theorem updates_delete :
    marksAround [] (.update .main (saidDeleted [] (some Ambient.plain.now) none) {})
      = (some (none, none), true, none)
    ∧ marksAround [] (.patch "a" ⟨.merge, .obj [("metadata", .obj [
        ("deletionTimestamp", .str "1970-01-01T00:00:00Z")])], none⟩ {})
      = (some (none, none), true, none)
    ∧ marksAround ["example.com/hold"]
        (.update .main (saidDeleted ["example.com/hold"] (some Ambient.plain.now) none) {})
      = (some (none, none), true, some (some Ambient.plain.now, none))
    ∧ marksAround [] (.update .main (saidDeleted [] none (some 30)) {})
      = (some (none, none), true, some (none, some 30)) := by
  refine ⟨?_, ?_, ?_, ?_⟩ <;> decide +kernel

end Registry

end FleetRegistry
