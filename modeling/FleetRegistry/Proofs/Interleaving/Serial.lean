import FleetRegistry.Proofs.Interleaving.Waiting

/-!
No update is lost. Calls that read at most once and then write have the effect of being executed one
after the other: those whose write succeeded, in the order of their writes.
-/
namespace FleetRegistry

variable {k : Kind}

namespace Registry

variable {policy : WritePolicy} {ambient : Ambient} {ns : Option String}

/-- Creations, updates of either side, and deletions of one object. -/
def IsPlainWrite : Call k → Prop
  | .create .. | .update .. | .delete .. => True
  | _ => False

theorem callSteps_within {call : Call k} (plain : IsPlainWrite call) :
    (callSteps policy ambient ns call).Within 1 := by
  cases call with
  | create o options => exact (createSteps_within 1 o).map _
  | update side o options => exact (updateSteps_within o).map _
  | delete name options => exact (deleteSteps_within ambient.now options).map _
  | get | list | watch | patch | deleteCollection => exact plain.elim

theorem callSteps_missed (noCreation : policy.createOnUpdate = false) {call : Call k}
    (plain : IsPlainWrite call) {addressNs : Option String} {name : String}
    {next : Outcome (Object k) → Steps k (Answer k (Watch k))}
    (reads : callSteps policy ambient ns call = .read addressNs name next)
    (error : RegistryError) : next (.error error) = .done (.error error) := by
  cases call with
  | create o options =>
    have within : (callSteps policy ambient ns (.create o options)).Within 0 :=
      (createSteps_within 0 o).map _
    rw [reads] at within
    exact within.elim
  | update side o options =>
    simp only [callSteps, updateSteps, updateAtSteps] at reads
    split at reads
    next => cases reads
    next =>
      split at reads
      next => cases reads
      next =>
        cases reads
        simp [noCreation, Steps.bind, Except.map]
  | delete name options =>
    simp only [callSteps, deleteSteps] at reads
    split at reads
    next => cases reads
    next =>
      cases reads
      rfl
  | get | list | watch | patch | deleteCollection => exact plain.elim

end Registry

def Process.Resumes (policy : WritePolicy) (r : Request k) (p : Process k) : Prop :=
  ∀ s : Store k, (∀ o, p.reads.head? = some o → s.view o.key = some o) →
    r.perform policy s = p.rest.run s

/-- How far a plain write can be: at its beginning, past its reading, or over. -/
inductive Process.Stage (policy : WritePolicy) (r : Request k) (p : Process k) : Prop
  | fresh (reads : p.reads = []) (rest : p.rest = r.steps policy)
  | decided (within : p.rest.Within 0) (resumes : p.Resumes policy r)
  | finished (outcome : Outcome (Answer k (Watch k))) (rest : p.rest = .done outcome)

/-- What holds of plain writes at all times: the store is as if those whose write succeeded had been
executed one after the other, with the same answers. -/
structure System.Serial {ι : Type} (policy : WritePolicy) (s : Store k) (calls : ι → Request k)
    (S : System ι k) : Prop where
  store : S.store = Registry.after policy s (S.written.map calls)
  stage : ∀ i, (S.processes i).Stage policy (calls i)
  answers : ∀ before i later, S.written = before ++ i :: later →
    ∃ answer, (S.processes i).rest = .done (.ok answer)
      ∧ ((calls i).perform policy (Registry.after policy s (before.map calls))).1 = .ok answer

namespace Process

variable {policy : WritePolicy} {r : Request k} {p : Process k}

theorem Stage.resumes (h : p.Stage policy r) {w : Store.Write k}
    {next : Outcome (Object k) → Steps k (Answer k (Watch k))} (rest : p.rest = .write w next) :
    p.Resumes policy r := by
  cases h with
  | fresh _ eq =>
    intro s _
    rw [eq, Request.run_steps]
  | decided _ resumes => exact resumes
  | finished _ eq =>
    rw [rest] at eq
    cases eq

theorem Stage.within (h : p.Stage policy r) (once : (r.steps policy).Within 1) :
    p.rest.Within 1 := by
  cases h with
  | fresh _ eq => exact eq ▸ once
  | decided within _ =>
    cases rest : p.rest with
    | done outcome => trivial
    | read | look =>
      rw [rest] at within
      exact within.elim
    | write w next =>
      rw [rest] at within
      exact within
  | finished _ eq =>
    rw [eq]
    trivial

theorem Stage.of_read (h : p.Stage policy r) {ns : Option String} {name : String}
    {next : Outcome (Object k) → Steps k (Answer k (Watch k))}
    (rest : p.rest = .read ns name next) :
    p.reads = [] ∧ r.steps policy = .read ns name next := by
  cases h with
  | fresh reads eq => exact ⟨reads, eq.symm.trans rest⟩
  | decided within _ =>
    rw [rest] at within
    exact within.elim
  | finished _ eq =>
    rw [rest] at eq
    cases eq

end Process

namespace System

variable {ι : Type} [DecidableEq ι] {S : System ι k} {log : List (Event k)} {policy : WritePolicy}
  {i : ι}

theorem Sound.stage_step (sound : S.Sound log) {r : Request k}
    (noCreation : policy.createOnUpdate = false) (plain : Registry.IsPlainWrite r.call)
    (h : (S.processes i).Stage policy r) :
    ((S.step i).processes i).Stage policy r := by
  have within := h.within (Registry.callSteps_within plain)
  have taken := S.takes_step i
  generalize S.step i = S' at taken
  cases taken with
  | finished => exact h
  | @found ns name next o rest there =>
    have ⟨reads, steps⟩ := h.of_read rest
    rw [rest] at within
    rw [resume_processes_self, reads]
    -- What was read has the key of its address, so a reading that finds it again goes the same way.
    refine .decided (within (.ok o)) fun s unchanged => ?_
    have there := Store.get_eq_ok.1 there
    have key := Event.key_of_replay (sound.remembers.view ▸ there)
    have here : s.get ns name = .ok o := Store.get_eq_ok.2 (key ▸ unchanged o rfl)
    rw [← Request.run_steps, steps, Steps.run_read, here]
  | @missed ns name next error rest _ =>
    have ⟨_, steps⟩ := h.of_read rest
    rw [resume_processes_self]
    exact .finished _ (Registry.callSteps_missed noCreation plain steps error)
  | looked rest =>
    rw [rest] at within
    exact within.elim
  | @wrote _ _ o _ rest =>
    rw [rest] at within
    obtain ⟨a, eq⟩ := within.2 o
    exact .finished (.ok a) (by simp [eq])
  | @refused _ _ error _ rest =>
    rw [rest] at within
    exact .finished (.error error) (by simp [within.1 error])

theorem Serial.resume {s : Store k} {calls : ι → Request k} (h : S.Serial policy s calls)
    {p : Process k} (unfinished : ∀ outcome, (S.processes i).rest ≠ .done outcome)
    (stage : p.Stage policy (calls i)) : (S.resume i p).Serial policy s calls := by
  refine ⟨h.store, fun j => ?_, fun before j later eq => ?_⟩
  · by_cases same : j = i
    · subst same
      simpa using stage
    · rw [S.resume_processes_of_ne same]
      exact h.stage j
  · obtain ⟨answer, rest, executed⟩ := h.answers before j later eq
    have other : j ≠ i := fun same => unfinished _ (same ▸ rest)
    rw [S.resume_processes_of_ne other]
    exact ⟨answer, rest, executed⟩

omit [DecidableEq ι] in
theorem Serial.wrote {s₀ : Store k} {calls : ι → Request k} (h : S.Serial policy s₀ calls)
    (sound : S.Sound log) (plain : ∀ i, Registry.IsPlainWrite (calls i).call)
    {w : Store.Write k} {next : Outcome (Object k) → Steps k (Answer k (Watch k))}
    (rest : (S.processes i).rest = .write w next) {o : Object k} {s : Store k}
    (ok : w.apply S.store = (.ok o, s)) :
    ∃ answer, next (.ok o) = .done (.ok answer)
      ∧ (calls i).perform policy S.store = (.ok answer, s) := by
  have within := (h.stage i).within (Registry.callSteps_within (plain i))
  rw [rest] at within
  obtain ⟨answer, eq⟩ := within.2 o
  refine ⟨answer, eq, ?_⟩
  rw [(h.stage i).resumes rest S.store, rest, Steps.run_write, ok, eq, Steps.run_done]
  exact fun old head => (sound.there_of_wrote rest head (by rw [ok])).2

theorem Serial.step {s₀ : Store k} {calls : ι → Request k} (h : S.Serial policy s₀ calls)
    (sound : S.Sound log) (noCreation : policy.createOnUpdate = false)
    (plain : ∀ i, Registry.IsPlainWrite (calls i).call) (i : ι) :
    (S.step i).Serial policy s₀ calls := by
  have stage := sound.stage_step noCreation (plain i) (h.stage i)
  have taken := S.takes_step i
  generalize S.step i = S' at taken stage
  cases taken with
  | finished => exact h
  | found rest | missed rest | looked rest =>
    rw [resume_processes_self] at stage
    exact h.resume (by simp [rest]) stage
  | @wrote w next o s rest ok =>
    obtain ⟨answer, eq, executed⟩ := h.wrote sound plain rest ok
    have resumed := h.resume (i := i) (p := ⟨[], next (.ok o)⟩) (by simp [rest]) (.finished _ eq)
    refine ⟨?_, resumed.stage, fun before j later split => ?_⟩
    · rw [List.map_append, Registry.after_append, ← h.store]
      exact (congrArg Prod.snd executed).symm
    · -- Either the call is the one that has just written, or its answer is known from before.
      rcases append_singleton_split split with ⟨rfl, rfl, -⟩ | ⟨known, inside⟩
      · exact ⟨answer, by simp [eq], by rw [← h.store, executed]⟩
      · exact resumed.answers before j known inside
  | @refused w _ error s rest failed =>
    rcases sound.remembers.apply w with ⟨_, eq⟩ | ⟨_, eq, _⟩
    · rw [eq] at failed
      cases failed
      exact h.resume (by simp [rest]) (by simpa using stage)
    · rw [failed] at eq
      cases eq

theorem Serial.run {s₀ : Store k} {calls : ι → Request k} (h : S.Serial policy s₀ calls)
    (sound : S.Sound log) (noCreation : policy.createOnUpdate = false)
    (plain : ∀ i, Registry.IsPlainWrite (calls i).call) (schedule : List ι) :
    (S.run schedule).Serial policy s₀ calls := by
  induction schedule generalizing S log with
  | nil => exact h
  | cons i rest ih =>
    obtain ⟨more, next⟩ := sound.step i
    exact ih (h.step sound noCreation plain i) next

omit [DecidableEq ι] in
theorem serial_start (policy : WritePolicy) (s : Store k) (calls : ι → Request k) :
    (start policy s calls).Serial policy s calls where
  store := rfl
  stage _ := .fresh rfl rfl
  answers before i later eq := by simp [start] at eq

theorem Sound.plain_write (sound : S.Sound log) {w : Store.Write k}
    {next : Outcome (Object k) → Steps k (Answer k (Watch k))}
    (rest : (S.processes i).rest = .write w next) {key : ObjectKey}
    (replaces : w.replaces? = some key) (within : (S.processes i).Within 1) {schedule : List ι}
    (waits : i ∉ schedule) :
    ∃ old, (S.processes i).reads = [old] ∧ old.key = key ∧
      ((∃ stored, (w.apply (S.run schedule).store).1 = .ok stored) →
        ∀ between, between <+: schedule → (S.run between).store.view key = some old) ∧
      ∀ between, between <+: schedule → (S.run between).store.view key ≠ some old →
        ∃ error, (S.run schedule).step i = (S.run schedule).resume i ⟨[], .done (.error error)⟩
          ∧ if ((S.run schedule).store.view key).isNone then error.isNotFound
            else error.isConflict := by
  obtain ⟨old, head, same, kept, gone⟩ := sound.write_after rest replaces schedule
  obtain ⟨m, bound, ends⟩ := within
  refine ⟨old, ?_, same, kept, fun between inside away => ?_⟩
  · cases reads : (S.processes i).reads with
    | nil => simp [reads] at head
    | cons first others =>
      rw [reads, List.length_cons] at bound
      obtain rfl : others = [] := List.eq_nil_of_length_eq_zero (by omega)
      rw [reads, List.head?_cons] at head
      cases head
      rfl
  · obtain ⟨error, failed, kind⟩ := gone between inside away
    have still : ((S.run schedule).processes i).rest = .write w next := by
      rw [S.run_processes_of_not_mem waits, rest]
    rw [rest] at ends
    refine ⟨error, ?_, kind⟩
    rw [System.step_of_refused still failed, ends.1 error]

end System

/-- No update is lost. Plain writes take their steps in any order, on a store that any calls have
left. Each of them replaces or removes exactly the object that it has read, or fails and changes
nothing. Unless updates may create what they do not find, the store they leave is the one that they
leave if those whose write succeeded are executed one after the other, in the order of their
writes. -/
theorem no_lost_update {ι : Type} [DecidableEq ι] (policy : WritePolicy)
    (requests : List (Request k)) (calls : ι → Request k)
    (plain : ∀ i, Registry.IsPlainWrite (calls i).call) :
    let s := Registry.after policy (.empty k) requests
    let start := System.start policy s calls
    (∀ (before after : List ι) (i : ι) (w : Store.Write k)
        (next : Outcome (Object k) → Steps k (Answer k (Watch k))) (key : ObjectKey),
      ((start.run before).processes i).rest = .write w next → w.replaces? = some key → i ∉ after →
      ∃ old, ((start.run before).processes i).reads = [old] ∧ old.key = key ∧
        let final := start.run (before ++ after)
        ((∃ stored, (w.apply final.store).1 = .ok stored) →
          ∀ between, between <+: after →
            (start.run (before ++ between)).store.view key = some old) ∧
        ∀ between, between <+: after →
          (start.run (before ++ between)).store.view key ≠ some old →
          ∃ error, final.step i = final.resume i ⟨[], .done (.error error)⟩
            ∧ if (final.store.view key).isNone then error.isNotFound else error.isConflict) ∧
    (policy.createOnUpdate = false → ∀ schedule,
      let final := start.run schedule
      final.store = Registry.after policy s (final.written.map calls) ∧
        ∀ earlier i later, final.written = earlier ++ i :: later →
          ∃ answer, (final.processes i).rest = .done (.ok answer) ∧
            ((calls i).perform policy (Registry.after policy s (earlier.map calls))).1
              = .ok answer) := by
  intro s start
  obtain ⟨log, sound⟩ := System.sound_following policy requests calls
  refine ⟨fun before after i w next key rest replaces waits => ?_, fun noCreation schedule => ?_⟩
  · obtain ⟨more, middle⟩ := sound.run before
    have once : ((calls i).steps policy).Within 1 := Registry.callSteps_within (plain i)
    have within := System.within_run (s := s) once before
    simp only [System.run_append]
    exact middle.plain_write rest replaces within waits
  · have serial := (System.serial_start policy s calls).run sound noCreation plain schedule
    exact ⟨serial.store, serial.answers⟩

def changeAndDeletion : Bool → Request .cluster
  | false => .plain (.update .main ((Object.bareCluster "a").mapMeta fun m =>
      { m with labels := some (.ofList [("tier", "one")]) }) {})
  | true => .plain (.delete "a" {})

/-- The deletion reads the cluster, then the change is made: the deletion is a conflict, and the
change is all that happened. -/
theorem no_lost_update_changeAndDeletion :
    let s := Registry.after {} (.empty .cluster) [.plain (.create (.bareCluster "a") {})]
    let final := (System.start {} s changeAndDeletion).run [true, false, false]
    (∃ error, final.step true = final.resume true ⟨[], .done (.error error)⟩
      ∧ error.isConflict = true) ∧
    final.store = Registry.after {} s [changeAndDeletion false] := by
  intro s final
  obtain ⟨each, serial⟩ := no_lost_update {} [.plain (.create (.bareCluster "a") {})]
    changeAndDeletion (by intro i; cases i <;> trivial)
  constructor
  · have waits : (((System.start {} s changeAndDeletion).run [true]).processes true).replaces?
        = some ⟨"", "a"⟩ := by decide +kernel
    obtain ⟨w, next, rest, replaces⟩ := Process.exists_of_replaces? waits
    obtain ⟨old, reads, -, -, gone⟩ := each [true] [false, false] true w next _ rest replaces
      (by decide)
    have read : (((System.start {} s changeAndDeletion).run [true]).processes true).reads.map
        (·.metadata.resourceVersion) = [some "1"] := by decide +kernel
    have now : (final.store.view ⟨"", "a"⟩).map (·.metadata.resourceVersion) = some (some "2") := by
      decide +kernel
    have away : final.store.view ⟨"", "a"⟩ ≠ some old := by
      intro same
      rw [reads] at read
      rw [same] at now
      simp_all
    obtain ⟨error, ended, kind⟩ := gone [false, false] List.prefix_rfl away
    have present : (final.store.view ⟨"", "a"⟩).isNone = false := by decide +kernel
    have kind : (if (final.store.view ⟨"", "a"⟩).isNone then error.isNotFound
      else error.isConflict) = true := kind
    rw [present] at kind
    exact ⟨error, ended, kind⟩
  · have written : final.written = [false] := by decide +kernel
    have executed : final.store = Registry.after {} s (final.written.map changeAndDeletion) :=
      (serial rfl [true, false, false]).1
    rw [executed, written]
    rfl

end FleetRegistry
