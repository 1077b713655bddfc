import FleetRegistry.Proofs.Registry.ReadBack
import FleetRegistry.Proofs.Registry.Trials
import FleetRegistry.Proofs.Watch.Listing

/-!
Creations, from the call to what is read afterwards. An object that is submitted is first made into
one that may be stored, and that one is checked. Only then the store looks at the version that was
submitted, and whether the place is taken. What it takes in has a version that no object ever had,
is found at its place, and stands at the end of every list that shows it.
-/
namespace FleetRegistry

variable {k : Kind}

namespace Object

/-- Objects that cannot be stored at the same time: they have the same name, and are in the same
namespace where their kind has them. -/
def SharesPlace (x o : Object k) : Prop :=
  x.metadata.nameText = o.metadata.nameText
    ∧ (k.namespaced = true → x.metadata.namespaceText = o.metadata.namespaceText)

instance (x o : Object k) : Decidable (x.SharesPlace o) := inferInstanceAs (Decidable (_ ∧ _))

/-- A list of a namespace shows an object if it is in that namespace; without one it shows all. -/
def ShownIn (o : Object k) (space : Option String) : Prop :=
  k.namespaced = true → space.getD "" = "" ∨ space = o.metadata.ns

variable {x o : Object k} {space : Option String}

theorem key_eq_iff (namedX : x.IsNamed) (named : o.IsNamed) : x.key = o.key ↔ x.SharesPlace o := by
  unfold key ObjectKey.ofAddress SharesPlace
  rw [ObjectKey.mk.injEq, anyName_of_named namedX, anyName_of_named named, and_comm]
  cases k.namespaced <;> simp [ObjectMeta.namespaceText]

theorem Regular.namespaceText (h : o.Regular) (namespaced : k.namespaced = true) :
    o.metadata.namespaceText ≠ "" := by
  intro empty
  have given := h.namespaceOfKind
  unfold ObjectMeta.namespaceErrors at given
  rw [namespaced, empty] at given
  cases given

theorem isIn_range : o.isIn (Registry.range k space) = true ↔ o.ShownIn space := by
  unfold isIn Registry.range ShownIn
  cases k.namespaced with
  | false => simp
  | true =>
    cases space with
    | none => simp
    | some given =>
      cases empty : given.isEmpty with
      | true => simp [Option.filter, String.isEmpty_iff.1 empty]
      | false =>
        have given' : given ≠ "" := fun same => by simp [same] at empty
        simp only [Option.filter, empty, Bool.not_false, if_true, Bool.not_true, Bool.false_or,
          Option.isNone_some, beq_iff_eq, Option.getD_some, given', false_or, forall_const]
        exact eq_comm

end Object

namespace Registry

variable {policy : WritePolicy} {ambient : Ambient} {ns space : Option String} {s : Store k}
  {o fresh : Object k}

/-! ## What is read afterwards -/

theorem list_unselected (space : Option String) (s : Store k) :
    ∃ page, list space {} s = .ok page
      ∧ page.items = s.toList.filter (·.isIn (range k space)) := by
  have parsed : Selection.ofListOptions {} = .ok .everything := rfl
  have whole : list space {} s = .ok (s.whole (range k space) .everything) := by
    rw [list, parsed]
    exact Store.list_unpaged rfl rfl
  exact ⟨_, whole, Store.items_everything _ s⟩

/-- The store after an object was taken in. -/
structure TakenIn (s : Store k) (o : Object k) (s' : Store k) : Prop where
  view : s'.view = Function.update s.view o.key (some o)
  objects : s'.toList = s.toList ++ [o]

theorem create_takes (h : s.Indexed) (ambient : Ambient)
    (created : (s.create ambient fresh).1 = .ok o) : TakenIn s o (s.create ambient fresh).2 := by
  rcases Store.create_cases ambient fresh s with ⟨error, eq⟩ | ⟨free, eq⟩
  · rw [eq] at created
    cases created
  · rw [eq] at created ⊢
    cases created
    refine ⟨?_, ?_⟩
    · rw [Store.view_record, h.view_inserted (o := Store.entered ambient _ fresh) free]
    · simp [Store.toList, Store.inserted]

theorem TakenIn.read {s' : Store k} (taken : TakenIn s o s') (valid : o.Regular) (named : o.IsNamed)
    (policy : WritePolicy) (ambient : Ambient) (space : Option String) :
    ((k.namespaced = true → space = o.metadata.ns) →
        (perform policy ambient space (.get o.metadata.nameText) s').1 = .ok (.object o))
      ∧ ∃ page page', (perform policy ambient space (.list {}) s).1 = .ok (.page page)
        ∧ (perform policy ambient space (.list {}) s').1 = .ok (.page page')
        ∧ (o.ShownIn space → page'.items = page.items ++ [o])
        ∧ (¬ o.ShownIn space → page'.items = page.items) := by
  refine ⟨fun there => ?_, ?_⟩
  · have inScope : scope k space = .ok (if k.namespaced then space else none) :=
      scope_eq_ok.2 ⟨fun namespaced => there namespaced ▸ valid.namespaceText namespaced, rfl⟩
    have key : ObjectKey.ofAddress k (if k.namespaced then space else none) o.metadata.nameText
        = o.key := by
      unfold Object.key ObjectKey.ofAddress
      rw [Object.anyName_of_named named]
      cases namespaced : k.namespaced with
      | true => simp [there namespaced]
      | false => simp
    have found : s'.get (if k.namespaced then space else none) o.metadata.nameText = .ok o := by
      rw [Store.get_eq_ok, key, taken.view, Function.update_self]
    simp only [perform, get, inScope, found]
    rfl
  · obtain ⟨page, listed, items⟩ := list_unselected space s
    obtain ⟨page', listed', items'⟩ := list_unselected space s'
    rw [taken.objects, List.filter_append, ← items, List.filter_singleton] at items'
    refine ⟨page, page', by simp only [perform, listed]; rfl, by simp only [perform, listed']; rfl,
      fun shown => ?_, fun hidden => ?_⟩
    · rw [items', Object.isIn_range.2 shown]
      rfl
    · rw [items', Bool.eq_false_iff.2 (mt Object.isIn_range.1 hidden)]
      exact List.append_nil _

theorem create_refused {error : RegistryError} {dryRun : Bool}
    (refused : (create ambient dryRun o s).1 = .error error) :
    create ambient dryRun o s = (.error error, s) := by
  unfold create at refused ⊢
  cases planned : planCreate ambient.suffix o with
  | error =>
    rw [planned] at refused
    cases refused
    rfl
  | ok fresh =>
    rw [planned] at refused
    cases dryRun with
    | true => cases refused
    | false =>
      dsimp only [Bool.false_eq_true, if_false] at refused ⊢
      rcases Store.create_cases ambient fresh s with ⟨error', eq⟩ | ⟨-, eq⟩
      · rw [eq] at refused ⊢
        cases refused
        rfl
      · rw [eq] at refused
        cases refused

theorem entered_eq (ambient : Ambient) (revision : Nat) (o : Object k) :
    Store.entered ambient revision o = { o with metadata := { o.metadata with
      resourceVersion := some (Nat.repr revision)
      uid := if o.metadata.uidText = "" then some ambient.uid else o.metadata.uid
      creationTimestamp := some (o.metadata.creationTimestamp.getD ambient.now) } } := by
  have time : (o.metadata.creationTimestamp <|> some ambient.now)
      = some (o.metadata.creationTimestamp.getD ambient.now) := by
    cases o.metadata.creationTimestamp <;> rfl
  have uid : (if o.metadata.uidText.isEmpty then some ambient.uid else o.metadata.uid)
      = if o.metadata.uidText = "" then some ambient.uid else o.metadata.uid := by simp
  rw [← time, ← uid]
  rfl

/-! ## What is made of a submitted object -/

theorem planCreate_of_valid (named : o.IsNamed) (valid : o.started.errors = []) (suffix : String) :
    planCreate suffix o = .ok o.started := by
  simp only [planCreate, newcomer_of_named named, valid, List.isEmpty_nil, if_true]
  rfl

theorem create_of_valid (named : o.IsNamed) (valid : o.started.errors = []) :
    create ambient false o s = s.create ambient o.started := by
  simp only [create, planCreate_of_valid named valid, Bool.false_eq_true, if_false]

theorem planCreate_of_invalid (named : o.IsNamed) (wrong : o.started.errors ≠ [])
    (suffix : String) :
    planCreate suffix o = .error (invalid k o.metadata.nameText o.started.errors) := by
  have name : o.started.anyName = o.metadata.nameText :=
    Object.anyName_of_named (show o.started.IsNamed from named)
  simp only [planCreate, newcomer_of_named named, List.isEmpty_iff, wrong, if_false, name]

theorem regular_entered (valid : o.started.errors = []) (ambient : Ambient) (revision : Nat) :
    (Store.entered ambient revision o.started).Regular := by
  have regular := (Object.errors_eq_nil.1 valid).1
  exact regular.congr rfl regular.finalizers

theorem ns_entered (namespaced : k.namespaced = true) (ambient : Ambient) (revision : Nat) :
    (Store.entered ambient revision o.started).metadata.ns = o.metadata.ns :=
  if_pos namespaced

theorem shownIn_entered (ambient : Ambient) (revision : Nat) :
    (Store.entered ambient revision o.started).ShownIn space ↔ o.ShownIn space :=
  forall_congr' fun namespaced => by rw [ns_entered namespaced]

/-! ## Versions -/

def NewVersion (policy : WritePolicy) (requests : List (Request k)) (version : Option String) :
    Prop :=
  ∀ earlier later, requests = earlier ++ later →
    ∀ x ∈ (after policy (.empty k) earlier).toList, x.metadata.resourceVersion ≠ version

theorem newVersion_next (policy : WritePolicy) (requests : List (Request k)) :
    NewVersion policy requests
      (some (Nat.repr ((after policy (.empty k) requests).revision + 1))) := by
  rintro earlier later rfl x stored same
  obtain ⟨log, remembers⟩ := (orderly_after policy earlier).journal
  obtain ⟨⟨place, _⟩, mem, rfl⟩ := List.mem_map.1 stored
  obtain ⟨n, -, le, version⟩ := remembers.consistent.versioned _ _ mem
  obtain ⟨more, last⟩ := remembers.calls policy later
  have grown : (after policy (.empty k) earlier).revision
      ≤ (after policy (.empty k) (earlier ++ later)).revision := by
    rw [after_append, remembers.revision, last.revision, List.length_append]
    exact Nat.le_add_right ..
  rw [version, Option.some.injEq] at same
  have equal := congrArg (Text.digits? ·.toList) same
  simp only [Text.digits?_repr, Option.some.injEq] at equal
  omega

/-! ## The whole call -/

theorem exists_taken_iff (h : s.Orderly) (named : o.IsNamed) :
    (∃ x ∈ s.toList, x.SharesPlace o) ↔ (s.view o.key).isSome := by
  rw [Option.isSome_iff_exists]
  constructor
  · rintro ⟨x, stored, same⟩
    obtain ⟨⟨place, _⟩, mem, rfl⟩ := List.mem_map.1 stored
    have there := h.indexed.view_of_mem mem
    exact ⟨_, (Object.key_eq_iff (h.named _ _ there) named).2 same ▸ there⟩
  · rintro ⟨x, there⟩
    obtain ⟨⟨place, mem⟩, key⟩ := h.indexed.view_eq_some_iff.1 there
    exact ⟨x, List.mem_map_of_mem mem, (Object.key_eq_iff (h.named _ _ there) named).1 key⟩

/-- Creation, from end to end. What is checked is the object as it would be stored; then comes the
version that was submitted, and then the place. What is taken in is that object with a new version,
and with an identity and a time of creation where it had none; it is what a later call gets, and
what stands at the end of a later list. A creation that fails leaves the store as it was. -/
theorem create_end_to_end (policy : WritePolicy) (requests : List (Request k)) (ns : Option String)
    {o : Object k} (named : o.metadata.nameText ≠ "") (options : WriteOptions)
    (earnest : options.dryRun = false) (ambient : Ambient) :
    let s := after policy (.empty k) requests
    let p := o.started
    let result := perform policy ambient ns (.create o options) s
    (p.errors ≠ [] → result = (.error (invalid k o.metadata.nameText p.errors), s))
    ∧ (p.errors = [] → o.metadata.versionText ≠ "" →
        result = (.error (.badRequest .versionOnCreate), s))
    ∧ (p.errors = [] → o.metadata.versionText = "" → (∃ x ∈ s.toList, x.SharesPlace o) →
        result = (.error (.alreadyExists k.qualified o.metadata.nameText), s))
    ∧ (p.errors = [] → o.metadata.versionText = "" → (¬ ∃ x ∈ s.toList, x.SharesPlace o) →
        ∃ version, NewVersion policy requests (some version) ∧
          let created : Object k := { p with metadata := { p.metadata with
            resourceVersion := some version
            uid := if p.metadata.uidText = "" then some ambient.uid else p.metadata.uid
            creationTimestamp := some (p.metadata.creationTimestamp.getD ambient.now) } }
          result.1 = .ok (.object created)
          ∧ ∀ ambient' space,
            ((k.namespaced = true → space = o.metadata.ns) →
              (perform policy ambient' space (.get o.metadata.nameText) result.2).1
                = .ok (.object created))
            ∧ ∃ page page', (perform policy ambient' space (.list {}) s).1 = .ok (.page page)
              ∧ (perform policy ambient' space (.list {}) result.2).1 = .ok (.page page')
              ∧ (o.ShownIn space → page'.items = page.items ++ [created])
              ∧ (¬ o.ShownIn space → page'.items = page.items)) := by
  intro s p result
  have h : s.Orderly := orderly_after policy requests
  have whole : result = answering .object (create ambient false o s) := by
    simp only [result, perform, earnest]
  have refuses {error : RegistryError} (refused : (create ambient false o s).1 = .error error) :
      result = (.error error, s) := by
    rw [whole, create_refused refused]
    rfl
  have answer (valid : p.errors = []) :=
    create_of_planned h.indexed named (planCreate_of_valid named valid ambient.suffix)
  refine ⟨fun wrong => refuses ?_, fun valid versioned => refuses ?_,
    fun valid unversioned taken => refuses ?_, fun valid unversioned free => ?_⟩
  · rw [create_of_refused (planCreate_of_invalid named wrong ambient.suffix)]
  · rw [answer valid, if_pos versioned]
  · rw [answer valid, if_neg (not_not_intro unversioned),
      if_pos ((exists_taken_iff h named).1 taken), Object.anyName_of_named named]
  · have answer := answer valid
    rw [if_neg (not_not_intro unversioned), if_neg (mt (exists_taken_iff h named).2 free)] at answer
    rw [create_of_valid named valid] at answer whole
    have taken := create_takes h.indexed ambient answer
    have regular := regular_entered valid ambient (s.revision + 1)
    refine ⟨_, newVersion_next policy requests, ?_⟩
    rw [← entered_eq ambient (s.revision + 1) p]
    refine ⟨by rw [whole, answering, answer]; rfl, fun ambient' space => ?_⟩
    have read := taken.read regular named policy ambient' space
    rw [shownIn_entered] at read
    rw [whole]
    exact ⟨fun there => read.1 fun namespaced =>
      (there namespaced).trans (ns_entered namespaced ..).symm, read.2⟩

/-- A cluster with a namespace, a generation and an observed side of its own, beside another one. -/
theorem create_end_to_end_second :
    let given : Object .cluster :=
      { metadata := { name := some "b", ns := some "web", generation := some 7 }
        spec := {}
        status := some {} }
    let s := after {} (.empty .cluster) (clusters ["a"])
    let result := perform {} .plain none (.create given {}) s
    ∃ created page page', result.1 = .ok (.object created)
      ∧ created.metadata.ns = none ∧ created.metadata.generation = some 1 ∧ created.status = none
      ∧ NewVersion {} (clusters ["a"]) created.metadata.resourceVersion
      ∧ (perform {} minuteLater none (.get "b") result.2).1 = .ok (.object created)
      ∧ (perform {} minuteLater none (.list {}) s).1 = .ok (.page page)
      ∧ (perform {} minuteLater none (.list {}) result.2).1 = .ok (.page page')
      ∧ page'.items = page.items ++ [created] := by
  intro given s result
  have named : given.metadata.nameText ≠ "" := by decide
  have valid : given.started.errors = [] := by decide +kernel
  have free : ¬ ∃ x ∈ s.toList, x.SharesPlace given := by decide +kernel
  obtain ⟨-, -, -, succeeds⟩ := create_end_to_end {} (clusters ["a"]) none named {} rfl .plain
  obtain ⟨version, new, answer, read⟩ := succeeds valid rfl free
  obtain ⟨get, page, page', listed, listed', shown, -⟩ := read minuteLater none
  exact ⟨_, page, page', answer, rfl, rfl, rfl, new, get nofun, listed, listed', shown nofun⟩

end Registry

end FleetRegistry
