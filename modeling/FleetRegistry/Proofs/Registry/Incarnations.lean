import FleetRegistry.Proofs.Registry.Identity
import FleetRegistry.Proofs.Registry.Sides
import FleetRegistry.Proofs.Store.Consistency

/-!
Incarnations of an object. Each creation gives an object a new identity, unless what is created
brings one. An identity stays with its object, so whoever has read it can tell a successor from it:
a guarded deletion leaves the successor alone, and so does an update of the declared side. An update
of the observed side does not look at the identity that it is given.
-/
namespace FleetRegistry.Registry

variable {k : Kind} {policy : WritePolicy} {s : Store k} {r : Request k} {given stored : Object k}

/-! ## Creations -/

/-- A creation that succeeds and is not only tried: what it is given, and what it stores. -/
structure Creates (policy : WritePolicy) (s : Store k) (r : Request k) (given stored : Object k) :
    Prop where
  asked : ∃ options, r.call = .create given options ∧ options.dryRun = false
  answered : (perform policy r.ambient r.ns r.call s).1 = .ok (.object stored)

theorem uid_newcomer (suffix : String) (o : Object k) :
    (newcomer suffix o).metadata.uid = o.metadata.uid := by
  show (o.metadata.named suffix).uid = o.metadata.uid
  unfold ObjectMeta.named
  split
  next =>
    split
    next => split <;> rfl
    next => rfl
  next => rfl

namespace Creates

theorem entered (c : Creates policy s r given stored) :
    stored = Store.entered r.ambient (s.revision + 1) (newcomer r.ambient.suffix given)
      ∧ (s.nextPlace, stored) ∈ (perform policy r.ambient r.ns r.call s).2.objects := by
  obtain ⟨⟨options, asked, wanted⟩, answered⟩ := c
  rw [asked] at answered ⊢
  simp only [perform, answering, create, wanted] at answered ⊢
  cases planned : planCreate r.ambient.suffix given with
  | error error => simp [planned, Except.map] at answered
  | ok fresh =>
    obtain ⟨-, rfl⟩ := planCreate_eq_ok planned
    simp only [planned, Bool.false_eq_true, if_false] at answered ⊢
    rcases Store.create_cases r.ambient (newcomer r.ambient.suffix given) s with
      ⟨error, eq⟩ | ⟨-, eq⟩
    · simp [eq, Except.map] at answered
    · rw [eq] at answered ⊢
      cases answered
      refine ⟨rfl, ?_⟩
      rw [Store.record_objects, Store.mem_inserted_objects]
      exact .inr ⟨rfl, rfl⟩

theorem of_create {ambient : Ambient} {ns : Option String} {options : WriteOptions}
    (created : (create ambient options.dryRun given s).1 = .ok stored)
    (wanted : options.dryRun = false) :
    Creates policy s ⟨ambient, ns, .create given options⟩ given stored where
  asked := ⟨options, rfl, wanted⟩
  answered := by simp only [perform, answering, created, Except.map]

theorem uid (c : Creates policy s r given stored) :
    stored.metadata.uid
      = if given.metadata.uidText.isEmpty then some r.ambient.uid else given.metadata.uid := by
  rw [c.entered.1]
  show (if (newcomer r.ambient.suffix given).metadata.uidText.isEmpty then some r.ambient.uid
    else (newcomer r.ambient.suffix given).metadata.uid) = _
  unfold ObjectMeta.uidText
  rw [uid_newcomer]

theorem identified (c : Creates policy s r given stored) :
    ∃ uid, stored.metadata.uid = some uid := by
  rw [c.uid]
  split
  next => exact ⟨_, rfl⟩
  next brought =>
    refine Option.ne_none_iff_exists'.1 fun none => brought ?_
    simp [ObjectMeta.uidText, none]

end Creates

/-! ## Identities of a run -/

/-- An identity that no object has had in a run. -/
def Unused (policy : WritePolicy) (requests : List (Request k)) (uid : String) : Prop :=
  ∀ e ∈ published policy (.empty k) requests, e.object.metadata.uidText ≠ uid

theorem Unused.ne {requests more : List (Request k)} {uid : String} {place : Nat} {o : Object k}
    (unused : Unused policy (requests ++ more) uid)
    (mem : (place, o) ∈ (after policy (.empty k) requests).objects) : o.metadata.uidText ≠ uid := by
  have remembers : (after policy (.empty k) requests).Remembers
      (published policy (.empty k) requests) := by
    simpa using Store.remembers_empty.after_calls policy requests
  obtain ⟨earlier, e, later, log, rfl⟩ := remembers.event_of_mem mem
  refine unused e ?_
  rw [published_append, log]
  simp

theorem Creates.placed {requests : List (Request k)}
    (c : Creates policy (after policy (.empty k) requests) r given stored) :
    ((after policy (.empty k) requests).nextPlace, stored)
      ∈ (after policy (.empty k) (requests ++ [r])).objects := by
  rw [after_append]
  exact c.entered.2

theorem Creates.uid_later {requests more : List (Request k)} {o : Object k}
    (c : Creates policy (after policy (.empty k) requests) r given stored)
    (later : ((after policy (.empty k) requests).nextPlace, o)
      ∈ (after policy (.empty k) (requests ++ r :: more)).objects) :
    o.metadata.uid = stored.metadata.uid := by
  rw [List.append_cons] at later
  exact congrArg (·.2.1) (identity_after policy (requests ++ [r]) more c.placed later)

/-! ## Guarded deletions -/

theorem uid_of_met {p : Preconditions} {uid : String} (asked : p.uid = some uid)
    {o : Object k} (met : checkPreconditions (some p) o = .ok ()) : uid = o.metadata.uidText := by
  by_contra other
  simp [checkPreconditions, Preconditions.conflict?, asked, other] at met

theorem kept_by_guarded {ambient : Ambient} {ns : Option String} {name : String}
    {options : DeleteOptions} {p : Preconditions} {uid : String} (h : s.Orderly) {place : Nat}
    {o : Object k} (mem : (place, o) ∈ s.objects) (guarded : options.preconditions = some p)
    (asked : p.uid = some uid) (other : uid ≠ o.metadata.uidText) :
    (place, o) ∈ (perform policy ambient ns (.delete name options) s).2.objects := by
  cases inScope : scope k ns with
  | error error => simpa only [perform, delete, inScope, answering] using mem
  | ok space =>
    rw [perform_delete inScope]
    have ends := (Edit.ofDelete name options space).ends h ambient.now
    obtain ⟨left, entry, kept | ⟨plan, planned, -⟩⟩ := ends.entry h.indexed mem
    · exact (entry o).2 kept
    · have planned : planDelete ambient.now options o = .ok plan := planned
      unfold planDelete at planned
      split at planned
      next => cases planned
      next met =>
        rw [guarded] at met
        exact absurd (uid_of_met asked met) other

/-- Two creations of one run, the second with an identity at hand that is not in use yet. What they
store has the same identity exactly if the second is given the identity of the first. Otherwise a
deletion that asks for an identity read at the place of the first leaves alone whatever stands at
the place of the second. -/
theorem identity_of_creation (policy : WritePolicy) (before between rest : List (Request k))
    {r r' : Request k} {given given' o o' : Object k}
    (first : Creates policy (after policy (.empty k) before) r given o)
    (second : Creates policy (after policy (.empty k) (before ++ r :: between)) r' given' o')
    (unused : Unused policy (before ++ r :: between) r'.ambient.uid) :
    let place := (after policy (.empty k) before).nextPlace
    let place' := (after policy (.empty k) (before ++ r :: between)).nextPlace
    let brought := given'.metadata.uidText ≠ "" ∧ given'.metadata.uid = o.metadata.uid
    let s := after policy (.empty k) (before ++ r :: between ++ r' :: rest)
    (o'.metadata.uid = o.metadata.uid ↔ brought)
    ∧ ∀ seen x x' p ambient ns name (options : DeleteOptions),
      (place, x) ∈ (after policy (.empty k) (before ++ r :: seen)).objects →
      (place', x') ∈ s.objects →
      options.preconditions = some p → p.uid = x.metadata.uid → ¬brought →
      (place', x') ∈ (perform policy ambient ns (.delete name options) s).2.objects := by
  intro place place' brought s
  have same : o'.metadata.uid = o.metadata.uid ↔ brought := by
    -- What the first creation stores was published before the second one.
    have differs : o.metadata.uidText ≠ r'.ambient.uid := by
      rw [List.append_cons] at unused
      exact unused.ne first.placed
    rw [second.uid]
    by_cases given : given'.metadata.uidText = ""
    · rw [if_pos (by simp [given])]
      refine iff_of_false (fun same => differs ?_) (fun brought => brought.1 given)
      simp [ObjectMeta.uidText, ← same]
    · rw [if_neg (by simpa using given)]
      exact (and_iff_right given).symm
  refine ⟨same, fun seen x x' p ambient ns name options read there guarded asked other => ?_⟩
  obtain ⟨uid, identified⟩ := first.identified
  obtain ⟨uid', identified'⟩ := second.identified
  have ne : uid ≠ x'.metadata.uidText := by
    have later : x'.metadata.uid = o'.metadata.uid := second.uid_later there
    rintro rfl
    refine other (same.1 ?_)
    rw [identified, identified', ObjectMeta.uidText, later, identified', Option.getD_some]
  have asked : p.uid = some uid := by rw [asked, first.uid_later read, identified]
  exact kept_by_guarded (orderly_after policy _) there guarded asked ne

/-- The creation of a cluster, with an identity at hand and perhaps one that it brings. -/
def creation (atHand : String) (brought : Option String) : Request .cluster :=
  ⟨{ Ambient.plain with uid := atHand }, none,
    .create ((Object.bareCluster "a").mapMeta fun m => { m with uid := brought }) {}⟩

def removal : Request .cluster := .plain (.delete "a" {})

def guardedDeletion : Call .cluster :=
  .delete "a" { preconditions := some { uid := some "uid-1" } }

/-- A cluster that has been created, deleted and created again. -/
def secondLife (brought : Option String) : Store .cluster :=
  after {} (.empty .cluster) [creation "uid-1" none, removal, creation "uid-2" brought]

def identities (s : Store .cluster) : List (Nat × Option String) :=
  s.objects.map fun x => (x.1, x.2.metadata.uid)

/-- The second cluster is left alone by a deletion that asks for the first. -/
theorem identity_of_creation_again :
    ∃ o, (secondLife none).objects = [(1, o)] ∧ o.metadata.uid = some "uid-2"
      ∧ (1, o) ∈ (perform {} .plain none guardedDeletion (secondLife none)).2.objects := by
  let s := after {} (.empty .cluster) [creation "uid-1" none, removal]
  have created : ((create { Ambient.plain with uid := "uid-1" } false (.bareCluster "a")
      (.empty .cluster)).1).toOption.isSome = true := by decide +kernel
  have created' : ((create { Ambient.plain with uid := "uid-2" } false (.bareCluster "a")
      s).1).toOption.isSome = true := by decide +kernel
  obtain ⟨first, created⟩ := Option.isSome_iff_exists.1 created
  obtain ⟨second, created'⟩ := Option.isSome_iff_exists.1 created'
  have first : Creates {} (.empty .cluster) (creation "uid-1" none) (.bareCluster "a") first :=
    .of_create (Outcome.toOption_eq_some.1 created) rfl
  have second : Creates {} s (creation "uid-2" none) (.bareCluster "a") second :=
    .of_create (Outcome.toOption_eq_some.1 created') rfl
  have unused : Unused {} [creation "uid-1" none, removal] "uid-2" := by
    unfold Unused
    decide +kernel
  have stored : identities (secondLife none) = [(1, some "uid-2")] := by decide +kernel
  obtain ⟨⟨_, o⟩, stored, eq⟩ := List.map_eq_singleton_iff.1 stored
  obtain ⟨rfl, uid⟩ := Prod.mk.inj eq
  have ⟨_, kept⟩ := identity_of_creation {} [] [removal] [] first second unused
  refine ⟨o, stored, uid, ?_⟩
  exact kept [] _ o _ .plain none "a" _ first.placed (stored ▸ List.mem_singleton_self _) rfl
    first.uid.symm fun brought => brought.1 rfl

/-- A cluster that is created with the identity of one before it is taken out by a deletion that
asks for that one, though no identity is handed out twice. -/
theorem brought_identity :
    Unused {} [creation "uid-1" none, removal] "uid-2"
      ∧ identities (after {} (.empty .cluster) [creation "uid-1" none]) = [(0, some "uid-1")]
      ∧ identities (after {} (.empty .cluster) [creation "uid-1" none, removal]) = []
      ∧ identities (secondLife (some "uid-1")) = [(1, some "uid-1")]
      ∧ identities (perform {} .plain none guardedDeletion (secondLife (some "uid-1"))).2 = [] := by
  refine ⟨?_, ?_, ?_, ?_, ?_⟩
  · unfold Unused
    decide +kernel
  all_goals decide +kernel

/-! ## Updates of another incarnation -/

variable {new old : Object k}

/-- A version that an update may name: none, if that is allowed, or the stored one. -/
def MayName (policy : WritePolicy) (new old : Object k) : Prop :=
  new.metadata.versionText = "" ∧ policy.unconditionalUpdate = true
    ∨ new.metadata.resourceVersion = old.metadata.resourceVersion

theorem checkVersion_of_mayName (name : String) (versioned : old.metadata.versionText ≠ "")
    (mayName : MayName policy new old) : checkVersion policy name new old = .ok () := by
  unfold checkVersion
  rcases mayName with ⟨empty, allowed⟩ | same
  · simp [empty, allowed]
  · have given : new.metadata.versionText ≠ "" := by
      rwa [ObjectMeta.versionText, same]
    simp [given, same]

/-- The violation of an update that names another identity than the stored one. -/
def otherIdentity (uid : String) : FieldError :=
  .invalid ((FieldPath.ofField "metadata").child "uid") uid "field is immutable"

theorem planUpdate_otherIdentity {name : String}
    (checked : checkVersion policy name new old = .ok ()) (given : new.metadata.uidText ≠ "")
    (other : new.metadata.uidText ≠ old.metadata.uidText) :
    ∃ errors, planUpdate policy .main name new old = .error (invalid k name errors)
      ∧ otherIdentity new.metadata.uidText ∈ errors := by
  have uid : ((completed new old).prepareUpdate .main old).metadata.uidText
      = new.metadata.uidText := by
    have kept : ¬new.metadata.uidText.isEmpty = true := by simpa using given
    show ((if new.metadata.uidText.isEmpty then old.metadata.uid else new.metadata.uid).getD "") = _
    rw [if_neg kept]
    rfl
  have named : otherIdentity new.metadata.uidText
      ∈ ((completed new old).prepareUpdate .main old).updateErrors .main old := by
    simp only [Object.updateErrors, ObjectMeta.updateErrors, ObjectMeta.fixedTextErrors, uid,
      if_neg other, List.mem_append, List.mem_singleton]
    exact .inl (.inl (.inl (.inr rfl)))
  refine ⟨_, ?_, named⟩
  simp only [planUpdate, checked]
  rw [if_neg fun none => List.ne_nil_of_mem named (List.isEmpty_iff.1 none)]

/-- An update of the declared side that addresses a stored object and names another identity is
refused with that violation. An update of the observed side does the same whatever identity it
names. -/
theorem update_of_other_identity (policy : WritePolicy) (off : policy.createOnUpdate = false)
    (requests : List (Request k)) (ambient : Ambient) (ns : Option String) (new old : Object k)
    (options : WriteOptions) :
    let s := after policy (.empty k) requests
    (old ∈ s.toList → (Call.update .main new options).target? ns = some old.key →
      new.metadata.uidText ≠ "" → new.metadata.uidText ≠ old.metadata.uidText →
      MayName policy new old →
      ∃ errors, perform policy ambient ns (.update .main new options) s
          = (.error (.invalid k.name new.anyName errors), s)
        ∧ otherIdentity new.metadata.uidText ∈ errors)
    ∧ ∀ ambient' uid,
      perform policy ambient' ns
          (.update .status (new.mapMeta fun m => { m with uid }) options) s
        = perform policy ambient ns (.update .status new options) s := by
  intro s
  refine ⟨fun stored aimed given other mayName => ?_, fun ambient' uid => ?_⟩
  · have h : s.Orderly := orderly_after policy requests
    obtain ⟨log, remembers⟩ := h.journal
    obtain ⟨⟨place, _⟩, mem, rfl⟩ := List.mem_map.1 stored
    have there := h.indexed.view_eq_some_iff.2 ⟨⟨place, mem⟩, rfl⟩
    obtain ⟨space, inScope, key⟩ := Option.map_eq_some_iff.1 aimed
    rw [← key] at there
    have named := h.named _ _ there
    have name : new.anyName ≠ "" := by
      have same : new.anyName = _ := congrArg ObjectKey.name key
      rw [same]
      exact (Object.anyName_of_named named).trans_ne named
    -- What is stored has a version, so an update that names it is not one without a version.
    obtain ⟨n, -, -, version⟩ := remembers.consistent.versioned place _ mem
    have checked := checkVersion_of_mayName new.anyName
      (by simp [ObjectMeta.versionText, version, Nat.repr_ne_empty]) mayName
    obtain ⟨errors, refused, violated⟩ := planUpdate_otherIdentity checked given other
    refine ⟨errors, ?_, violated⟩
    rw [perform_update off (Outcome.toOption_eq_some.1 inScope)]
    refine Edit.run_of_refused ?_
    dsimp only [Edit.ofUpdate, planUpdateAt]
    rw [if_neg (by simpa using name), Store.get_eq_ok.2 there]
    exact refused
  · exact perform_update_congr off _ new ambient' ambient rfl rfl
      (planUpdate_status_congr _ rfl rfl)

/-- What one writes who takes a cluster for another incarnation. -/
def mistaken : Object .cluster :=
  { reporting "eu" with metadata := { name := some "a", uid := some "other" } }

def firstLife : Store .cluster := after {} (.empty .cluster) [creation "uid-1" none]

theorem update_of_other_identity_mistaken :
    ∃ errors, perform {} .plain none (.update .main mistaken {}) firstLife
        = (.error (.invalid "Cluster" "a" errors), firstLife)
      ∧ otherIdentity "other" ∈ errors := by
  have stored : firstLife.toList.map (fun o => (o.key, o.metadata.uidText))
      = [(⟨"", "a"⟩, "uid-1")] := by decide +kernel
  obtain ⟨old, stored, eq⟩ := List.map_eq_singleton_iff.1 stored
  obtain ⟨key, uid⟩ := Prod.mk.inj eq
  have ⟨refused, _⟩ := update_of_other_identity {} rfl [creation "uid-1" none] .plain none mistaken
    old {}
  refine refused ?_ (congrArg some key.symm) (by decide) (uid ▸ by decide) (.inl ⟨rfl, rfl⟩)
  exact stored ▸ List.mem_singleton_self _

/-- An update of the observed side gets through that names another identity than the stored one. -/
theorem status_of_other_identity :
    identities firstLife = [(0, some "uid-1")]
      ∧ mistaken.metadata.uid = some "other"
      ∧ (perform {} .plain none (.update .status mistaken {}) firstLife).1.isOk = true
      ∧ (perform {} .plain none (.update .status mistaken {}) firstLife).2.objects.map (·.2.status)
        = [mistaken.status] := by
  refine ⟨?_, ?_, ?_, ?_⟩ <;> decide +kernel

end FleetRegistry.Registry
