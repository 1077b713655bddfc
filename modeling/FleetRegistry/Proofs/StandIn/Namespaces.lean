import FleetRegistry.Client.StandIn
import FleetRegistry.Proofs.Store.Consistency
import FleetRegistry.Proofs.Store.Entries
import FleetRegistry.Proofs.Store.Paging

/-!
Namespaces of the stand-in. A client is bound to a namespace, and its calls write there and nowhere
else, with one exception: a patch puts its object where the patched object says that it belongs. So
it can take the place of an object of the same name in another namespace.
-/
namespace FleetRegistry.StandIn

open Store (Write)

variable {k : Kind} {s : Store k} {ns : Option String}

/-! ## The writes of a call -/

def Within (ns : Option String) (s s' : Store k) : Prop :=
  ∃ writes : List (Write k), s' = s.after writes
    ∧ ∀ w ∈ writes, ∃ name, w.key = .ofAddress k ns name

namespace Within

theorem refl (s : Store k) : Within ns s s := ⟨[], rfl, List.forall_mem_nil _⟩

theorem single (w : Write k) {name : String} (key : w.key = .ofAddress k ns name) :
    Within ns s (w.apply s).2 := ⟨[w], rfl, List.forall_mem_singleton.2 ⟨name, key⟩⟩

theorem elsewhere {s' : Store k} (within : Within ns s s') (h : s.Indexed) {key : ObjectKey}
    (other : ∀ name, key ≠ .ofAddress k ns name) : s'.view key = s.view key := by
  obtain ⟨writes, rfl, there⟩ := within
  refine h.after_elsewhere fun w mem => ?_
  obtain ⟨name, key⟩ := there w mem
  exact key ▸ other name

theorem indexed {s' : Store k} (within : Within ns s s') (h : s.Indexed) : s'.Indexed := by
  obtain ⟨writes, rfl, -⟩ := within
  exact h.after writes

end Within

theorem bind_eq_ok {o bound : Object k} (h : bind ns o = .ok bound) :
    bound = o.mapMeta fun m => { m with ns } := by
  unfold bind at h
  dsimp only at h
  split at h
  · exact (Except.ok.inj h).symm
  · split at h
    · exact (Except.ok.inj h).symm
    · cases h

theorem ns_named (suffix : String) (m : ObjectMeta) : (m.named suffix).ns = m.ns := by
  unfold ObjectMeta.named
  split
  next =>
    split
    next => split <;> rfl
    next => rfl
  next => rfl

theorem key_named (suffix : String) (o : Object k) :
    (o.mapMeta (·.named suffix)).key
      = .ofAddress k o.metadata.ns (o.mapMeta (·.named suffix)).anyName :=
  congrArg (ObjectKey.ofAddress k · _) (ns_named suffix o.metadata)

theorem create_within (ambient : Ambient) (dryRun : Bool) (o : Object k) (s : Store k) :
    Within ns s (create ambient ns dryRun o s).2 := by
  unfold create
  cases bound : bind ns o with
  | error error => exact .refl s
  | ok o' =>
    dsimp only
    split
    · exact .refl s
    · rw [bind_eq_ok bound]
      exact .single (.create ambient _) (key_named ambient.suffix _)

theorem update_within (dryRun : Bool) (o : Object k) (s : Store k) :
    Within ns s (update ns dryRun o s).2 := by
  unfold update
  cases bound : bind ns o with
  | error error => exact .refl s
  | ok o' =>
    dsimp only
    split
    · exact .refl s
    · rw [bind_eq_ok bound]
      exact .single (.update _) rfl

theorem writeStatus_within (h : s.Indexed) (o : Object k) :
    Within ns s (writeStatus ns o s).2 := by
  unfold writeStatus
  cases found : s.get ns o.anyName with
  | error error => exact .refl s
  | ok current =>
    have key := (h.view_eq_some_iff.1 (Store.get_eq_ok.1 found)).2
    exact .single (.update _) key

theorem updateStatus_within (h : s.Indexed) (dryRun : Bool) (o : Object k) :
    Within ns s (updateStatus ns dryRun o s).2 := by
  unfold updateStatus
  split
  · exact .refl s
  · exact writeStatus_within h o

theorem delete_within (name : String) (options : DeleteOptions) (s : Store k) :
    Within ns s (delete ns name options s).2 := by
  unfold delete
  split
  · exact .refl s
  · exact .single (.delete ns name options.preconditions) rfl

theorem deleteEach_store (preconditions : Option Preconditions) (objects : List (Object k))
    (s : Store k) : (deleteEach preconditions objects s).2
      = s.after (objects.map fun o => .delete o.metadata.ns o.anyName preconditions) := by
  induction objects generalizing s with
  | nil => rfl
  | cons o rest ih =>
    rw [List.map_cons, Store.after_cons, ← ih, deleteEach]
    show _ = (deleteEach preconditions rest (s.delete _ _ preconditions).2).2
    rcases s.delete o.metadata.ns o.anyName preconditions with ⟨_ | _, _⟩ <;> rfl

theorem key_of_isIn {ns : String} {o : Object k} (inside : o.isIn (boundTo k ns) = true) :
    o.key = .ofAddress k (boundTo k ns) o.anyName := by
  unfold Object.isIn boundTo at inside
  unfold Object.key ObjectKey.ofAddress boundTo
  cases kind : k.namespaced <;> simp_all

theorem selected_of_listed {selection : Selection} {page : Page k}
    (listed : s.list ns selection.unpaged = .ok page) {o : Object k} (mem : o ∈ page.items) :
    ∃ place, (place, o) ∈ s.objects ∧ o.isIn ns = true := by
  have starts : s.startPlace selection.unpaged.continueToken = .ok 0 := rfl
  obtain ⟨shown, rest, split, eq⟩ := Store.list_of_start ns selection.unpaged starts
  rw [eq] at listed
  cases listed
  obtain ⟨entry, shows, rfl⟩ := List.mem_map.1 mem
  have selected : entry ∈ s.selected ns selection.unpaged 0 := split ▸ List.mem_append_left _ shows
  simp only [Store.selected, List.mem_filter, Bool.and_eq_true] at selected
  exact ⟨entry.1, selected.1, selected.2.1.2⟩

theorem deleteCollection_within (ns : String) (selection : ListOptions) (options : DeleteOptions)
    (s : Store k) :
    Within (boundTo k ns) s (deleteCollection (boundTo k ns) selection options s).2 := by
  unfold deleteCollection
  cases Selection.ofListOptions selection with
  | error error => exact .refl s
  | ok selection =>
    dsimp only
    cases listed : s.list (boundTo k ns) selection.unpaged with
    | error error => exact .refl s
    | ok page =>
      dsimp only
      split
      next => exact .refl s
      next =>
        refine ⟨_, deleteEach_store options.preconditions page.items s, fun w mem => ?_⟩
        obtain ⟨o, shown, rfl⟩ := List.mem_map.1 mem
        obtain ⟨_, _, inside⟩ := selected_of_listed listed shown
        exact ⟨o.anyName, key_of_isIn inside⟩

/-! ## Patches that leave the namespace -/

/-- A patch in earnest that makes an object of another namespace, where one of the same name is
stored whose place it may take: because the patched object has that one's version, or none. -/
inductive Strays (ns : Option String) (s : Store k) : Call k → Prop
  | patch {name : String} {document : PatchRequest} {options : WriteOptions}
    {current o previous : Object k} (earnest : options.dryRun = false)
    (main : document.side = .ok .main) (found : s.get ns name = .ok current)
    (becomes : patched document current = .ok o) (named : o.anyName = name)
    (outside : o.key.ns ≠ (ObjectKey.ofAddress k ns name).ns)
    (taken : s.view o.key = some previous)
    (passes : o.metadata.versionText.isEmpty = true
      ∨ o.metadata.resourceVersion = previous.metadata.resourceVersion) :
    Strays ns s (.patch name document options)

theorem write_within {o : Object k} {name : String}
    (fails : o.key.ns ≠ (ObjectKey.ofAddress k ns name).ns → ∀ previous,
      s.view o.key = some previous → ¬(o.metadata.versionText.isEmpty = true
        ∨ o.metadata.resourceVersion = previous.metadata.resourceVersion)) :
    Within ns s (s.update o).2 := by
  by_cases inside : o.key.ns = (ObjectKey.ofAddress k ns name).ns
  · have key : o.key = .ofAddress k ns o.anyName := congrArg (ObjectKey.mk · o.anyName) inside
    exact .single (.update o) key
  · cases taken : s.view o.key with
    | none =>
      rw [Store.update_of_none taken]
      exact .refl s
    | some previous =>
      obtain ⟨versioned, stale⟩ := not_or.1 (fails inside previous taken)
      rw [Store.update_of_stale taken (Bool.not_eq_true _ ▸ versioned) stale]
      exact .refl s

theorem patch_within (h : s.Indexed) {name : String} {document : PatchRequest}
    {options : WriteOptions} (straight : ¬ Strays ns s (.patch name document options)) :
    Within ns s (patch ns name document options.dryRun s).2 := by
  unfold patch
  cases found : s.get ns name with
  | error error => exact .refl s
  | ok current =>
    dsimp only
    cases becomes : patched document current with
    | error error => exact .refl s
    | ok o =>
      dsimp only
      split
      next => exact .refl s
      next named =>
        split
        next => exact .refl s
        next earnest =>
          cases side : document.side with
          | error error => exact .refl s
          | ok chosen =>
            cases chosen with
            | status => exact writeStatus_within h o
            | main =>
              exact write_within fun outside previous taken passes =>
                straight (.patch (by simpa using earnest) side found becomes
                  (by simpa using named) outside taken passes)

theorem perform_within (h : s.Indexed) (ambient : Ambient) (ns : String) {call : Call k}
    (straight : ¬ Strays (boundTo k ns) s call) :
    Within (boundTo k ns) s (perform ambient (boundTo k ns) call s).2 := by
  cases call with
  | get name | list options | watch options => exact .refl s
  | create o options => exact create_within ambient options.dryRun o s
  | update side o options =>
    cases side with
    | main => exact update_within options.dryRun o s
    | status => exact updateStatus_within h options.dryRun o
  | patch name document options => exact patch_within h straight
  | delete name options => exact delete_within name options s
  | deleteCollection selection options => exact deleteCollection_within ns selection options s

/-- A patch that strays overwrites the object of another namespace. -/
theorem perform_strays (h : s.Indexed) (ambient : Ambient) {call : Call k}
    (strays : Strays ns s call) :
    ∃ o previous : Object k, o.key.ns ≠ (ObjectKey.ofAddress k ns o.anyName).ns
      ∧ s.view o.key = some previous
      ∧ (perform ambient ns call s).2.view o.key = some (o.withVersion (s.revision + 1)) := by
  cases strays with
  | @patch name document options current o previous earnest main found becomes named outside taken
      passes =>
    refine ⟨o, previous, named ▸ outside, taken, ?_⟩
    obtain ⟨place, there, eq⟩ := Store.update_of_current h taken passes
    have same : (o.withVersion (s.revision + 1)).key = previous.key :=
      (h.view_eq_some_iff.1 taken).2.symm
    have step : (perform ambient ns (.patch name document options) s).2 = (s.update o).2 := by
      simp [perform, answering, patch, found, becomes, named, earnest, main]
    rw [step, eq, Store.view_record, h.view_replaced there same]
    exact Function.update_self _ _ _

/-! ## Calls to the stand-in -/

def Unanswered (ns : String) (call : Call k) (s : StandIn) : Prop :=
  (Reactor.firstReaction? s.reactors (Action.ofCall (boundTo k ns) call)).bind (answerOf? call)
    = none

theorem serve_store (ambient : Ambient) (ns : String) (call : Call k) (s : StandIn) :
    s.Unanswered ns call
        ∧ (s.serve ambient ns call).2.store k = (perform ambient (boundTo k ns) call (s.store k)).2
      ∨ ¬ s.Unanswered ns call ∧ (s.serve ambient ns call).2.store k = s.store k := by
  have same (actions : List Action) : store k { s with actions } = s.store k := by cases k <;> rfl
  unfold serve Unanswered
  dsimp only
  cases (Reactor.firstReaction? s.reactors (Action.ofCall (boundTo k ns) call)).bind
      (answerOf? call) with
  | none => exact .inl ⟨rfl, by simp [same]⟩
  | some outcome => exact .inr ⟨nofun, same _⟩

structure ClientCall (k : Kind) where
  ambient : Ambient
  ns : String
  call : Call k

def afterCalls (s : StandIn) (calls : List (ClientCall k)) : StandIn :=
  calls.foldl (fun s c => (s.serve c.ambient c.ns c.call).2) s

def isMainPatch : Call k → Bool
  | .patch _ document options => !options.dryRun && document.subresource.isNone
  | _ => false

theorem not_strays {call : Call k} (other : isMainPatch call = false) : ¬ Strays ns s call := by
  intro strays
  cases strays with
  | @patch name document options _ _ _ earnest main =>
    cases part : document.subresource with
    | none => simp [isMainPatch, earnest, part] at other
    | some part' =>
      simp only [PatchRequest.side, part] at main
      split at main <;> cases main

theorem serve_elsewhere {s : StandIn} (h : (s.store k).Indexed) (c : ClientCall k)
    (other : isMainPatch c.call = false) :
    ((s.serve c.ambient c.ns c.call).2.store k).Indexed
      ∧ ∀ key, (∀ name, key ≠ .ofAddress k (boundTo k c.ns) name) →
        ((s.serve c.ambient c.ns c.call).2.store k).view key = (s.store k).view key := by
  rcases serve_store c.ambient c.ns c.call s with ⟨-, after⟩ | ⟨-, after⟩ <;> rw [after]
  · have within := perform_within h c.ambient c.ns (not_strays other)
    exact ⟨within.indexed h, fun key outside => within.elsewhere h outside⟩
  · exact ⟨h, fun _ _ => rfl⟩

theorem afterCalls_elsewhere {s : StandIn} (h : (s.store k).Indexed) {calls : List (ClientCall k)}
    {key : ObjectKey} (others : ∀ c ∈ calls, isMainPatch c.call = false
      ∧ ∀ name, key ≠ .ofAddress k (boundTo k c.ns) name) :
    ((s.afterCalls calls).store k).view key = (s.store k).view key := by
  induction calls generalizing s with
  | nil => rfl
  | cons c rest ih =>
    have ⟨⟨other, outside⟩, later⟩ := List.forall_mem_cons.1 others
    have ⟨indexed, kept⟩ := serve_elsewhere h c other
    exact (ih indexed later).trans (kept key outside)

/-- Every storage state that the clients share is one that writes lead to. There a call leaves all
other namespaces as they are, except for a patch that strays and that no reactor answers: it always
overwrites an object of another namespace. -/
theorem other_namespaces_kept_iff (writes : List (Write .dnsRecord)) (s : StandIn)
    (stored : s.records = (Store.empty .dnsRecord).after writes) (ambient : Ambient) (ns : String)
    (call : Call .dnsRecord) :
    (∀ key : ObjectKey, key.ns ≠ ns →
        (s.serve ambient ns call).2.records.view key = s.records.view key)
      ↔ ¬ (s.Unanswered ns call ∧ Strays (some ns) s.records call) := by
  obtain ⟨log, journal⟩ := Store.exists_journal writes
  rw [← stored] at journal
  have other {key : ObjectKey} (outside : key.ns ≠ ns) (name : String) :
      key ≠ .ofAddress .dnsRecord (some ns) name := fun same => outside (same ▸ rfl)
  rcases serve_store ambient ns call s with ⟨unanswered, after⟩ | ⟨answered, after⟩
  · change (s.serve ambient ns call).2.records = _ at after
    rw [after]
    constructor
    · rintro kept ⟨-, strays⟩
      obtain ⟨o, previous, outside, taken, overwritten⟩ :=
        perform_strays journal.indexed ambient strays
      have same := overwritten.symm.trans ((kept o.key outside).trans taken)
      obtain ⟨⟨place, there⟩, -⟩ := journal.indexed.view_eq_some_iff.1 taken
      obtain ⟨n, -, le, version⟩ := journal.consistent.versioned place previous there
      -- What is stored now has a version that no object had before.
      rw [← Option.some.inj same, Object.version_withVersion, Option.some.injEq] at version
      have numbers := congrArg (Text.digits? ·.toList) version
      simp only [Text.digits?_repr, Option.some.injEq] at numbers
      omega
    · intro straight key outside
      have within := perform_within journal.indexed ambient ns
        fun strays => straight ⟨unanswered, strays⟩
      exact within.elsewhere journal.indexed (other outside)
  · change (s.serve ambient ns call).2.records = s.records at after
    rw [after]
    exact ⟨fun _ both => answered both.1, fun _ _ _ => rfl⟩

def webRecord : Object .dnsRecord where
  metadata := { name := some "a", ns := some "web" }
  spec := { federationName := "galactic" }
  status := none

def twin : Object .dnsRecord := webRecord.mapMeta fun m => { m with ns := some "other" }

def twins : List (Write .dnsRecord) := [.create .plain webRecord, .create .plain twin]

def ofTwins : StandIn := { records := (Store.empty .dnsRecord).after twins }

/-- All that is deleted is deleted in the namespace of the client. -/
theorem other_namespaces_kept_iff_emptied :
    let after := (ofTwins.serve .plain "web" (k := .dnsRecord) (.deleteCollection {} {})).2.records
    after.view ⟨"web", "a"⟩ = none ∧ after.view ⟨"other", "a"⟩ = ofTwins.records.view ⟨"other", "a"⟩
      ∧ (ofTwins.records.view ⟨"other", "a"⟩).isSome = true := by
  refine ⟨by decide +kernel, ?_, by decide +kernel⟩
  exact (other_namespaces_kept_iff twins ofTwins rfl .plain "web" (.deleteCollection {} {})).2
    (fun both => nomatch both.2) ⟨"other", "a"⟩ (by decide)

/-- A patch of the record in one namespace takes the place of the record in the other one. -/
theorem patch_overwrites_twin :
    let document : Json := .obj [("metadata", .obj [
      ("namespace", .str "other"), ("resourceVersion", .null),
      ("labels", .obj [("from", .str "web")])])]
    let patch : Call .dnsRecord := .patch "a" { type := .merge, document } {}
    let after := (ofTwins.serve .plain "web" patch).2.records
    after.view ⟨"web", "a"⟩ = ofTwins.records.view ⟨"web", "a"⟩
      ∧ after.view ⟨"other", "a"⟩ ≠ ofTwins.records.view ⟨"other", "a"⟩
      ∧ (after.view ⟨"other", "a"⟩).map (·.metadata.labelMap)
        = some (.ofList [("from", "web")]) := by
  decide +kernel

end FleetRegistry.StandIn
