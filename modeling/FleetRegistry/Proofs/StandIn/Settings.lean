import FleetRegistry.Proofs.Registry.DryRuns
import FleetRegistry.Proofs.StandIn.Namespaces

/-!
Settings of the stand-in. It carries the settings that it is given and looks at none of them when it
answers a call. So its stores stay as they are only under calls that fail or that say of themselves
that they are only tried, also where the settings say that every write is.
-/
namespace FleetRegistry.StandIn

open Store (Write)

variable {k : Kind} {s : Store k} {ns : Option String}

/-! ## Calls that write -/

/-- A store that comes of writes, and is another one exactly under some condition. -/
structure ChangesIff (s s' : Store k) (condition : Prop) : Prop where
  after : ∃ writes : List (Write k), s' = s.after writes
  kept : s' = s ↔ ¬ condition

theorem ChangesIff.same {condition : Prop} (never : ¬ condition) : ChangesIff s s condition :=
  ⟨⟨[], rfl⟩, iff_of_true rfl never⟩

/-- What comes of a call that writes at most once: it fails and changes nothing, or its write
succeeds. -/
inductive OneWrite (s : Store k) {α : Type} : Outcome α × Store k → Prop
  | fails (error : RegistryError) : OneWrite s (.error error, s)
  | writes (w : Write k) {o : Object k} (written : (w.apply s).1 = .ok o) (a : α) :
    OneWrite s (.ok a, (w.apply s).2)

namespace OneWrite

variable {α β : Type} {result : Outcome α × Store k}

theorem single (h : s.Indexed) (w : Write k) : OneWrite s (w.apply s) := by
  rcases h.apply_outcome w with ⟨error, failed⟩ | ⟨o, written, -⟩
  · rw [failed]
    exact .fails error
  · rw [show w.apply s = (.ok o, (w.apply s).2) from Prod.ext written rfl]
    exact .writes w written o

theorem map (one : OneWrite s result) (f : α → β) : OneWrite s (result.1.map f, result.2) := by
  cases one with
  | fails error => exact .fails error
  | writes w written a => exact .writes w written (f a)

theorem changesIff (h : s.Indexed) (one : OneWrite s result) :
    ChangesIff s result.2 (∃ a, result.1 = .ok a) := by
  cases one with
  | fails error => exact .same fun ⟨a, ok⟩ => nomatch ok
  | writes w written a =>
    refine ⟨⟨[w], rfl⟩, iff_of_false (fun same => ?_) (not_not_intro ⟨a, rfl⟩)⟩
    obtain ⟨error, failed⟩ := (h.after_eq_self_iff [w]).1 same w (List.mem_singleton_self w)
    rw [written] at failed
    cases failed

theorem answered (h : s.Indexed) (one : OneWrite s result) (answer : α → Answer k (Watch k)) :
    ChangesIff s (answering answer result).2 (∃ a, (answering answer result).1 = .ok a) :=
  (one.map answer).changesIff h

end OneWrite

theorem create_oneWrite (h : s.Indexed) {dryRun : Bool} (earnest : dryRun = false)
    (ambient : Ambient) (o : Object k) : OneWrite s (create ambient ns dryRun o s) := by
  subst earnest
  unfold create
  cases bind ns o with
  | error error => exact .fails error
  | ok o => exact .single h (.create ambient _)

theorem update_oneWrite (h : s.Indexed) {dryRun : Bool} (earnest : dryRun = false)
    (o : Object k) : OneWrite s (update ns dryRun o s) := by
  subst earnest
  unfold update
  cases bind ns o with
  | error error => exact .fails error
  | ok o => exact .single h (.update o)

theorem writeStatus_oneWrite (h : s.Indexed) (o : Object k) : OneWrite s (writeStatus ns o s) := by
  unfold writeStatus
  cases s.get ns o.anyName with
  | error error => exact .fails error
  | ok current => exact .single h (.update _)

theorem updateStatus_oneWrite (h : s.Indexed) {dryRun : Bool} (earnest : dryRun = false)
    (o : Object k) : OneWrite s (updateStatus ns dryRun o s) := by
  subst earnest
  exact writeStatus_oneWrite h o

theorem patch_oneWrite (h : s.Indexed) {dryRun : Bool} (earnest : dryRun = false) (name : String)
    (document : PatchRequest) : OneWrite s (patch ns name document dryRun s) := by
  subst earnest
  unfold patch
  cases s.get ns name with
  | error error => exact .fails error
  | ok current =>
    dsimp only
    cases patched document current with
    | error error => exact .fails error
    | ok o =>
      dsimp only
      split
      next => exact .fails _
      next =>
        rw [if_neg Bool.false_ne_true]
        rcases document.side with error | side
        · exact .fails error
        · cases side with
          | main => exact .single h (.update o)
          | status => exact writeStatus_oneWrite h o

theorem delete_oneWrite (h : s.Indexed) {options : DeleteOptions} (earnest : options.dryRun = false)
    (name : String) : OneWrite s (delete ns name options s) := by
  unfold delete
  rw [if_neg (by simp [earnest])]
  exact (OneWrite.single h (.delete ns name options.preconditions)).map _

theorem deleteEach_changesIff (h : s.Indexed) {preconditions : Option Preconditions}
    {objects : List (Object k)} (stored : ∀ o ∈ objects, ∃ place, (place, o) ∈ s.objects) :
    ChangesIff s (deleteEach preconditions objects s).2
      (∃ o ∈ objects, checkPreconditions preconditions o = .ok ()) := by
  rw [deleteEach_store]
  refine ⟨⟨_, rfl⟩, ?_⟩
  rw [h.after_eq_self_iff, List.forall_mem_map]
  push Not
  refine forall₂_congr fun o mem => ?_
  have there : s.view (.ofAddress k o.metadata.ns o.anyName) = some o :=
    h.view_eq_some_iff.2 ⟨stored o mem, rfl⟩
  cases met : checkPreconditions preconditions o with
  | error error =>
    refine iff_of_true ⟨error, ?_⟩ (by simp)
    rw [Write.apply, Store.delete_of_refused there met]
  | ok =>
    refine iff_of_false ?_ (not_not_intro rfl)
    obtain ⟨place, -, -, eq⟩ := Store.delete_of_met h there met
    rw [Write.apply, eq]
    rintro ⟨error, refused⟩
    cases refused

/-- Whether a call, given to a store, writes there. It has to be in earnest and to succeed; a
deletion of many objects has to find one that it may delete. -/
def Writes (ambient : Ambient) (ns : Option String) (s : Store k) (call : Call k) : Prop :=
  call.dryRun = false ∧
    match call with
    | .get _ | .list _ | .watch _ => False
    | .deleteCollection listed options => ∃ selection page,
      Selection.ofListOptions listed = .ok selection ∧ s.list ns selection.unpaged = .ok page
        ∧ ∃ o ∈ page.items, checkPreconditions options.preconditions o = .ok ()
    | call => ∃ answer, (perform ambient ns call s).1 = .ok answer

theorem deleteCollection_changesIff (h : s.Indexed) {listed : ListOptions}
    {options : DeleteOptions} (earnest : options.dryRun = false) :
    ChangesIff s (deleteCollection ns listed options s).2 (∃ selection page,
      Selection.ofListOptions listed = .ok selection ∧ s.list ns selection.unpaged = .ok page
        ∧ ∃ o ∈ page.items, checkPreconditions options.preconditions o = .ok ()) := by
  unfold deleteCollection
  cases Selection.ofListOptions listed with
  | error error => exact .same fun ⟨_, _, chosen, _⟩ => nomatch chosen
  | ok selection =>
    dsimp only
    cases found : s.list ns selection.unpaged with
    | error error =>
      refine .same ?_
      simp [found]
    | ok page =>
      have stored : ∀ o ∈ page.items, ∃ place, (place, o) ∈ s.objects := fun o mem =>
        have ⟨place, there, _⟩ := selected_of_listed found mem
        ⟨place, there⟩
      simpa [earnest, found] using deleteEach_changesIff h stored

theorem perform_changesIff (h : s.Indexed) (ambient : Ambient) (ns : Option String)
    (call : Call k) :
    ChangesIff s (perform ambient ns call s).2 (Writes ambient ns s call) := by
  cases dry : call.dryRun with
  | true =>
    rw [perform_dryRun dry]
    refine .same fun writes => ?_
    simp [Writes, dry] at writes
  | false =>
    simp only [Writes, dry, true_and]
    cases call with
    | get name | list options | watch options => exact .same id
    | create o options => exact (create_oneWrite h dry ambient o).answered h _
    | update side o options =>
      cases side with
      | main => exact (update_oneWrite h dry o).answered h _
      | status => exact (updateStatus_oneWrite h dry o).answered h _
    | patch name document options => exact (patch_oneWrite h dry name document).answered h _
    | delete name options => exact (delete_oneWrite h dry name).answered h _
    | deleteCollection listed options => exact deleteCollection_changesIff h dry

/-! ## Runs of calls to both stores -/

def afterAll (s : StandIn) (calls : List ((k : Kind) × ClientCall k)) : StandIn :=
  calls.foldl (fun s c => (s.serve c.2.ambient c.2.ns c.2.call).2) s

/-- Whether a call of a client, made to a stand-in, writes there: no reactor answers it, and it
writes in the store of its kind. -/
def WritesIn (s : StandIn) (c : (k : Kind) × ClientCall k) : Prop :=
  s.Unanswered c.2.ns c.2.call
    ∧ Writes c.2.ambient (boundTo c.1 c.2.ns) (s.store c.1) c.2.call

variable {standIn : StandIn}

theorem serve_reactors (ambient : Ambient) (ns : String) (call : Call k) (s : StandIn) :
    (s.serve ambient ns call).2.reactors = s.reactors := by
  unfold serve
  dsimp only
  split
  next => rfl
  next => cases k <;> rfl

theorem store_withStore_of_ne {j : Kind} (other : j ≠ k) (store : Store k) (s : StandIn) :
    (s.withStore k store).store j = s.store j := by
  cases j with
  | cluster =>
    cases k with
    | cluster => exact (other rfl).elim
    | dnsRecord => rfl
  | dnsRecord =>
    cases k with
    | cluster => rfl
    | dnsRecord => exact (other rfl).elim

theorem serve_other (ambient : Ambient) (ns : String) (call : Call k) (s : StandIn) {j : Kind}
    (other : j ≠ k) : (s.serve ambient ns call).2.store j = s.store j := by
  have same (actions : List Action) : store j { s with actions } = s.store j := by cases j <;> rfl
  unfold serve
  dsimp only
  split
  next => exact same _
  next => exact (store_withStore_of_ne other _ _).trans (same _)

theorem serve_changesIff (h : ∀ j, (standIn.store j).Indexed)
    (c : (k : Kind) × ClientCall k) (j : Kind) :
    ChangesIff (standIn.store j) ((standIn.serve c.2.ambient c.2.ns c.2.call).2.store j)
      (j = c.1 ∧ standIn.WritesIn c) := by
  obtain ⟨k, c⟩ := c
  by_cases same : j = k
  · subst same
    rcases serve_store c.ambient c.ns c.call standIn with ⟨unanswered, after⟩ | ⟨answered, after⟩
    · rw [after]
      have changes := perform_changesIff (h j) c.ambient (boundTo j c.ns) c.call
      exact ⟨changes.after, by simpa [WritesIn, unanswered] using changes.kept⟩
    · rw [after]
      exact .same fun both => answered both.2.1
  · rw [serve_other _ _ _ _ same]
    exact .same fun both => same both.1

theorem writesIn_congr {s s' : StandIn} (reactors : s'.reactors = s.reactors)
    (stores : ∀ j, s'.store j = s.store j) (c : (k : Kind) × ClientCall k) :
    s'.WritesIn c ↔ s.WritesIn c := by
  simp only [WritesIn, Unanswered, reactors, stores]

theorem afterAll_keeps_iff (h : ∀ j, (standIn.store j).Indexed)
    (calls : List ((k : Kind) × ClientCall k)) :
    (∀ j, ∃ writes : List (Write j),
      (standIn.afterAll calls).store j = (standIn.store j).after writes)
    ∧ ((∀ j, (standIn.afterAll calls).store j = standIn.store j)
      ↔ ∀ c ∈ calls, ¬ standIn.WritesIn c) := by
  induction calls generalizing standIn with
  | nil => exact ⟨fun j => ⟨[], rfl⟩, by simp [afterAll]⟩
  | cons c rest ih =>
    let next := (standIn.serve c.2.ambient c.2.ns c.2.call).2
    have step (j : Kind) := serve_changesIff h c j
    choose first after using fun j => (step j).after
    have indexed (j : Kind) : (next.store j).Indexed := after j ▸ (h j).after (first j)
    have ⟨more, kept⟩ := ih indexed
    choose later after' using more
    have whole (j : Kind) : (standIn.afterAll (c :: rest)).store j
        = (standIn.store j).after (first j ++ later j) := by
      rw [Store.after_append, ← after j]
      exact after' j
    refine ⟨fun j => ⟨_, whole j⟩, ?_⟩
    rw [List.forall_mem_cons]
    -- As long as nothing is written, a call finds what is stored at first.
    have congr (stays : ∀ j, next.store j = standIn.store j) :
        (∀ c ∈ rest, ¬ next.WritesIn c) ↔ ∀ c ∈ rest, ¬ standIn.WritesIn c :=
      forall₂_congr fun c' _ => not_congr (writesIn_congr (serve_reactors ..) stays c')
    constructor
    · intro same
      have stays (j : Kind) : next.store j = standIn.store j :=
        (after j).trans (((h j).after_append_eq_self_iff _ _).1 ((whole j).symm.trans (same j))).1
      refine ⟨fun writes => (step c.1).kept.1 (stays c.1) ⟨rfl, writes⟩, ?_⟩
      exact (congr stays).1 (kept.1 fun j => (same j).trans (stays j).symm)
    · rintro ⟨head, others⟩ j
      have stays (j : Kind) : next.store j = standIn.store j :=
        (step j).kept.2 fun both => head both.2
      exact (kept.2 ((congr stays).2 others) j).trans (stays j)

theorem serve_withConfig (config : ClientConfig) (ambient : Ambient) (ns : String) (call : Call k)
    (s : StandIn) : serve ambient ns call { s with config }
      = ((s.serve ambient ns call).1, { (s.serve ambient ns call).2 with config }) := by
  unfold serve
  dsimp only
  cases (Reactor.firstReaction? s.reactors (Action.ofCall (boundTo k ns) call)).bind
      (answerOf? call) with
  | some outcome => rfl
  | none => cases k <;> rfl

theorem afterAll_withConfig (config : ClientConfig) (calls : List ((k : Kind) × ClientCall k))
    (s : StandIn) : afterAll { s with config } calls = { s.afterAll calls with config } := by
  induction calls generalizing s with
  | nil => rfl
  | cons c rest ih =>
    simp only [afterAll, List.foldl_cons, serve_withConfig]
    exact ih _

/-- Calls come to the same under all settings, those included by which every write is only tried:
they keep what is stored, the objects, the revisions and the histories, exactly if none of them
writes when it is made to what is stored at first. -/
theorem stores_kept_iff (config : ClientConfig) (s : StandIn)
    {clusterWrites : List (Write .cluster)} {recordWrites : List (Write .dnsRecord)}
    (clusters : s.clusters = (Store.empty .cluster).after clusterWrites)
    (records : s.records = (Store.empty .dnsRecord).after recordWrites)
    (calls : List ((k : Kind) × ClientCall k)) :
    let s' := afterAll { s with config } calls
    s' = { s.afterAll calls with config }
      ∧ (s'.clusters = s.clusters ∧ s'.records = s.records ↔ ∀ c ∈ calls, ¬ s.WritesIn c) := by
  intro s'
  have same : s' = { s.afterAll calls with config } := afterAll_withConfig config calls s
  have indexed (j : Kind) : (s.store j).Indexed := by
    cases j with
    | cluster =>
      obtain ⟨log, journal⟩ := Store.exists_journal clusterWrites
      exact (clusters ▸ journal.indexed :)
    | dnsRecord =>
      obtain ⟨log, journal⟩ := Store.exists_journal recordWrites
      exact (records ▸ journal.indexed :)
  refine ⟨same, ?_⟩
  rw [same, ← (afterAll_keeps_iff indexed calls).2]
  refine ⟨fun both j => ?_, fun each => ⟨each .cluster, each .dnsRecord⟩⟩
  cases j with
  | cluster => exact both.1
  | dnsRecord => exact both.2

/-- A stand-in by whose settings every write is only tried. -/
def trying : StandIn := { config := { dryRun := true } }

def creationOf (name : String) (dryRun : Bool) : (k : Kind) × ClientCall k :=
  ⟨.cluster, ⟨.plain, "", .create (.bareCluster name) { dryRun }⟩⟩

/-- A creation that says of itself that it is only tried keeps what is stored, another one does
not. -/
theorem stores_kept_iff_created :
    (trying.afterAll [creationOf "a" true]).clusters = trying.clusters
      ∧ ¬ ((trying.afterAll [creationOf "a" true, creationOf "b" false]).clusters = trying.clusters
        ∧ (trying.afterAll [creationOf "a" true, creationOf "b" false]).records
          = trying.records) := by
  have clusters : trying.clusters = (Store.empty .cluster).after [] := rfl
  have records : trying.records = (Store.empty .dnsRecord).after [] := rfl
  have kept (calls : List ((k : Kind) × ClientCall k)) :=
    (stores_kept_iff { dryRun := true } trying clusters records calls).2
  constructor
  · refine ((kept [creationOf "a" true]).2 ?_).1
    rw [List.forall_mem_singleton]
    exact fun writes => nomatch writes.2.1
  · intro same
    have succeeds : (perform .plain none (Call.create (.bareCluster "b") {})
        trying.clusters).1.toOption.isSome = true := by decide +kernel
    obtain ⟨answer, succeeds⟩ := Option.isSome_iff_exists.1 succeeds
    have writes : trying.WritesIn (creationOf "b" false) :=
      ⟨rfl, rfl, answer, Outcome.toOption_eq_some.1 succeeds⟩
    exact (kept _).1 same _ (by simp) writes

/-- A cluster is created although all writes are to be tried only. -/
theorem dryRun_setting_ignored :
    let s := (trying.serve .plain "" (k := .cluster) (.create (.bareCluster "a") {})).2
    trying.config.dryRun = true ∧ trying.clusters.revision = 0
      ∧ trying.clusters.objects.length = 0 ∧ s.clusters.revision = 1
      ∧ s.clusters.objects.length = 1 ∧ s.clusters.history.length = 1 := by
  decide +kernel

end FleetRegistry.StandIn
