import FleetRegistry.Proofs.Interleaving.Held
import FleetRegistry.Proofs.Store.Entries
import Mathlib.Logic.Relation

/-!
What calls change. A call moves the store by single writes, and there are only so many kinds of
them: a checked new object, an update of one side of a stored object, the mark of a deletion, a
removal. What each of these keeps, every run of calls keeps.
-/
namespace FleetRegistry

variable {k : Kind}

namespace Registry

def MayStay (o : Object k) : Prop := o.metadata.isDeleting = true → o.metadata.finalizerList ≠ []

/-- How an object can take the place of a stored one. -/
inductive Revises (old : Object k) : Object k → Prop
  | main (new : Object k)
    (accepted : ((completed new old).prepareUpdate .main old).updateErrors .main old = [])
    (stays : MayStay ((completed new old).prepareUpdate .main old)) :
    Revises old ((completed new old).prepareUpdate .main old)
  | status (new : Object k)
    (accepted : ((completed new old).prepareUpdate .status old).updateErrors .status old = [])
    (stays : MayStay (((completed new old).prepareUpdate .status old).canonicalize .status)) :
    Revises old (((completed new old).prepareUpdate .status old).canonicalize .status)
  | marked (now : Instant) (propagation : Option PropagationPolicy)
    (waits : finalizersUnder propagation old.metadata.finalizerList ≠ []) :
    Revises old (marked now (finalizersUnder propagation old.metadata.finalizerList) old)

theorem planCreate_eq_ok {suffix : String} {given fresh : Object k}
    (h : planCreate suffix given = .ok fresh) :
    (newcomer suffix given).errors = [] ∧ fresh = newcomer suffix given := by
  unfold planCreate at h
  simp only at h
  split at h
  next checked =>
    cases h
    exact ⟨List.isEmpty_iff.1 checked, rfl⟩
  next => cases h

theorem planUpdate_eq_ok {policy : WritePolicy} {side : WriteSide} {name : String}
    {new old : Object k} {plan : Plan k} (h : planUpdate policy side name new old = .ok plan) :
    checkVersion policy name new old = .ok ()
      ∧ ((completed new old).prepareUpdate side old).updateErrors side old = []
      ∧ plan = planChange (((completed new old).prepareUpdate side old).canonicalize side) old := by
  unfold planUpdate at h
  split at h
  next => cases h
  next checked =>
    simp only at h
    split at h
    next accepted =>
      cases h
      exact ⟨checked, List.isEmpty_iff.1 accepted, rfl⟩
    next => cases h

theorem planChange_eq_put {final old x : Object k} (h : planChange final old = .put x) :
    x = final ∧ MayStay final := by
  unfold planChange at h
  split at h
  next => cases h
  next =>
    split at h
    next => cases h
    next stays =>
      cases h
      refine ⟨rfl, fun deleting none => stays ?_⟩
      simp [deleting, none]

theorem revises_of_planUpdate {policy : WritePolicy} {side : WriteSide} {name : String}
    {new old final : Object k} (h : planUpdate policy side name new old = .ok (.put final)) :
    Revises old final := by
  have ⟨_, accepted, plan⟩ := planUpdate_eq_ok h
  obtain ⟨rfl, stays⟩ := planChange_eq_put plan.symm
  cases side with
  | main => exact .main new accepted stays
  | status => exact .status new accepted stays

theorem revises_of_planDelete {now : Instant} {options : DeleteOptions} {old final : Object k}
    (h : planDelete now options old = .ok (.put final)) : Revises old final := by
  unfold planDelete at h
  split at h
  next => cases h
  next =>
    simp only at h
    split at h
    next => cases h
    next some =>
      split at h
      next => cases h
      next =>
        cases h
        exact .marked now options.propagationPolicy fun none => some (List.isEmpty_iff.2 none)

/-! ## Moves -/

/-- The writes that calls make. -/
inductive Permitted (s : Store k) : Store.Write k → Prop
  | create {ambient : Ambient} {suffix : String} {given fresh : Object k}
    (planned : planCreate suffix given = .ok fresh) : Permitted s (.create ambient fresh)
  | update {old final : Object k} (there : s.view old.key = some old)
    (based : (Plan.put final).BasedOn old) (revises : Revises old final) :
    Permitted s (.update final)
  | delete {ns : Option String} {name : String} {old : Object k}
    (there : s.view (.ofAddress k ns name) = some old) :
    Permitted s (.delete ns name (some { resourceVersion := old.metadata.resourceVersion }))

def Move (s s' : Store k) : Prop := ∃ w, Permitted s w ∧ s' = (w.apply s).2

abbrev Leads : Store k → Store k → Prop := Relation.ReflTransGen Move

end Registry

/-- A store as calls leave it: it has a journal, and its objects have names of their own. -/
structure Store.Orderly (s : Store k) : Prop where
  journal : ∃ log, s.Remembers log
  named : s.Named

namespace Store.Orderly

variable {s s' : Store k}

theorem indexed (h : s.Orderly) : s.Indexed := h.journal.elim fun _ remembers => remembers.indexed

theorem move (h : s.Orderly) (m : Registry.Move s s') : s'.Orderly := by
  obtain ⟨w, permitted, rfl⟩ := m
  obtain ⟨log, remembers⟩ := h.journal
  have based : ∃ last, w.BasedOn last := by
    cases permitted with
    | create planned => exact ⟨none, Registry.named_of_planCreate planned, rfl⟩
    | @update old _ _ based _ => exact ⟨some old, based.1, old, rfl, based.2⟩
    | @delete _ _ old there =>
      exact ⟨some old, old, rfl, (remembers.indexed.view_eq_some_iff.1 there).2.symm, rfl⟩
  obtain ⟨last, based⟩ := based
  refine ⟨?_, h.named.apply remembers based⟩
  rcases remembers.apply w with ⟨error, eq⟩ | ⟨e, _, after⟩
  · exact ⟨log, by rw [eq]; exact remembers⟩
  · exact ⟨_, after⟩

theorem leads (h : s.Orderly) (l : Registry.Leads s s') : s'.Orderly := by
  induction l with
  | refl => exact h
  | tail _ m ih => exact ih.move m

end Store.Orderly

namespace Registry

variable {s s' : Store k} {policy : WritePolicy} {ambient : Ambient} {side : WriteSide}
  {ns : Option String} {name : String} {dryRun : Bool}

theorem orderly_after (policy : WritePolicy) (requests : List (Request k)) :
    (after policy (.empty k) requests).Orderly := by
  obtain ⟨log, remembers, named⟩ := after_named policy requests
  exact ⟨⟨log, remembers⟩, named⟩

theorem leads_write {w : Store.Write k} (permitted : Permitted s w) : Leads s (w.apply s).2 :=
  .single ⟨w, permitted, rfl⟩

theorem create_leads (o : Object k) : Leads s (create ambient dryRun o s).2 := by
  unfold create
  split
  next => exact .refl
  next fresh planned =>
    cases dryRun with
    | true => exact .refl
    | false => exact leads_write (.create planned)

theorem conclude_leads {plan : Plan k} {old : Object k} (h : s.Orderly)
    (there : s.view (.ofAddress k ns name) = some old) (based : plan.BasedOn old)
    (revises : ∀ final, plan = .put final → Revises old final) :
    Leads s (plan.conclude dryRun ns name s).2 := by
  unfold Plan.conclude
  cases dryRun with
  | true => exact .refl
  | false =>
    have key : old.key = .ofAddress k ns name := (h.indexed.view_eq_some_iff.1 there).2
    cases plan with
    | keep o => exact .refl
    | put final => exact leads_write (.update (key ▸ there) based (revises final rfl))
    | remove o version =>
      obtain rfl : version = old.metadata.resourceVersion := based
      exact leads_write (.delete there)

theorem updateAt_leads (h : s.Orderly) (new : Object k) :
    Leads s (updateAt policy ambient side ns name dryRun new s).2 := by
  unfold updateAt
  split
  next => exact .refl
  next =>
    split
    next =>
      split
      next => exact create_leads new
      next => exact .refl
    next old found =>
      split
      next => exact .refl
      next plan planned =>
        have there := Store.get_eq_ok.1 found
        refine conclude_leads h there (planUpdate_basedOn (h.named _ _ there) planned) ?_
        rintro final rfl
        exact revises_of_planUpdate planned

theorem update_leads (h : s.Orderly) (new : Object k) :
    Leads s (update policy ambient side dryRun new s).2 := by
  unfold update
  split
  next => exact .refl
  next => exact updateAt_leads h new

theorem patch_leads (h : s.Orderly) (document : PatchRequest) :
    Leads s (patch policy ambient ns name document dryRun s).2 := by
  unfold patch
  split
  next => exact .refl
  next =>
    split
    next => exact .refl
    next =>
      unfold patchAt
      split
      next => exact .refl
      next =>
        split
        next => exact .refl
        next new _ => exact updateAt_leads h new

theorem deleteAt_leads (h : s.Orderly) (now : Instant) (options : DeleteOptions) :
    Leads s (deleteAt now ns name options s).2 := by
  unfold deleteAt
  split
  next => exact .refl
  next old found =>
    split
    next => exact .refl
    next plan planned =>
      have there := Store.get_eq_ok.1 found
      have leads : Leads s (plan.conclude options.dryRun ns name s).2 := by
        refine conclude_leads h there (planDelete_basedOn (h.named _ _ there) planned) ?_
        rintro final rfl
        exact revises_of_planDelete planned
      split <;> simp_all

theorem delete_leads (h : s.Orderly) (now : Instant) (options : DeleteOptions) :
    Leads s (delete now ns name options s).2 := by
  unfold delete
  split
  next => exact .refl
  next => exact deleteAt_leads h now options

theorem deleteEach_leads (h : s.Orderly) (now : Instant) (options : DeleteOptions)
    (objects : List (Object k)) : Leads s (deleteEach now options objects s).2 := by
  induction objects generalizing s with
  | nil => exact .refl
  | cons o rest ih =>
    have first : Leads s (deleteAt now o.metadata.ns o.anyName options s).2 :=
      deleteAt_leads h now options
    unfold deleteEach
    split
    next eq =>
      rw [eq] at first
      exact first.trans (ih (h.leads first))
    next eq =>
      rw [eq] at first
      exact first.trans (ih (h.leads first))

theorem deleteCollection_leads (h : s.Orderly) (now : Instant) (selection : ListOptions)
    (options : DeleteOptions) : Leads s (deleteCollection now ns selection options s).2 := by
  unfold deleteCollection
  split
  next => exact .refl
  next =>
    split
    next => exact .refl
    next page _ => exact deleteEach_leads h now options page.items

/-- Every call moves the store by writes of these kinds. -/
theorem perform_leads (h : s.Orderly) (policy : WritePolicy) (ambient : Ambient)
    (ns : Option String) (call : Call k) : Leads s (perform policy ambient ns call s).2 := by
  cases call <;> simp only [perform, answering]
  case get | list | watch => exact .refl
  case create o options => exact create_leads o
  case update side o options => exact update_leads h o
  case patch name document options => exact patch_leads h document
  case delete name options => exact delete_leads h ambient.now options
  case deleteCollection selection options =>
    exact deleteCollection_leads h ambient.now selection options

theorem after_leads (h : s.Orderly) (policy : WritePolicy) (requests : List (Request k)) :
    Leads s (after policy s requests) := by
  induction requests generalizing s with
  | nil => exact .refl
  | cons r rest ih =>
    have first := perform_leads h policy r.ambient r.ns r.call
    exact first.trans (ih (h.leads first))

/-! ## What all runs keep -/

/-- How an object comes to stand at a place after a move. -/
inductive Stands (s : Store k) (place : Nat) : Object k → Prop
  | kept {o : Object k} (before : (place, o) ∈ s.objects) : Stands s place o
  | created {suffix : String} {given fresh : Object k} (ambient : Ambient)
    (free : place = s.nextPlace) (planned : planCreate suffix given = .ok fresh) :
    Stands s place (Store.entered ambient (s.revision + 1) fresh)
  | revised {old final : Object k} (before : (place, old) ∈ s.objects)
    (key : final.key = old.key) (revises : Revises old final) :
    Stands s place (final.withVersion (s.revision + 1))

theorem stands_of_move (h : s.Orderly) (m : Move s s') {place : Nat} {o : Object k}
    (mem : (place, o) ∈ s'.objects) :
    (place, o) ∈ s.objects ∧ s.revision ≤ s'.revision
      ∨ s'.revision = s.revision + 1 ∧ Stands s place o := by
  obtain ⟨w, permitted, rfl⟩ := m
  have does := h.indexed.does w
  generalize w.apply s = result at does mem ⊢
  cases does with
  | fails => exact .inl ⟨mem, Nat.le_refl _⟩
  | inserts _ e =>
    rw [Store.record_objects, Store.mem_inserted_objects] at mem
    refine .inr ⟨Store.record_revision .., ?_⟩
    cases permitted with
    | create planned =>
      rcases mem with before | ⟨free, rfl⟩
      · exact .kept before
      · exact .created _ free planned
  | @replaces final previous at' there key e =>
    rw [Store.record_objects, Store.mem_replaced_objects] at mem
    refine .inr ⟨Store.record_revision .., ?_⟩
    cases permitted with
    | @update old _ there' based revises =>
      rcases mem with ⟨rfl, rfl, -⟩ | ⟨-, before⟩
      · have same : s.view old.key = some previous :=
          h.indexed.view_eq_some_iff.2 ⟨⟨_, there⟩, key.symm.trans based.2.1⟩
        obtain rfl : old = previous := Option.some.inj (there'.symm.trans same)
        exact .revised there based.2.1 revises
      · exact .kept before
  | removes _ _ e =>
    rw [Store.record_objects, Store.mem_removed_objects] at mem
    exact .inr ⟨Store.record_revision .., .kept mem.1⟩

theorem nextPlace_le (h : s.Orderly) (l : Leads s s') : s.nextPlace ≤ s'.nextPlace := by
  induction l with
  | refl => exact Nat.le_refl _
  | tail l m ih =>
    obtain ⟨w, _, rfl⟩ := m
    exact Nat.le_trans ih ((h.leads l).indexed.counters w).2.1

/-- A property of stored objects that no call breaks. It may depend on the revision of the store. -/
structure Invariant (P : Nat → Object k → Prop) : Prop where
  later : ∀ {m n : Nat} {o : Object k}, m ≤ n → P m o → P n o
  created : ∀ {suffix : String} {given fresh : Object k}, planCreate suffix given = .ok fresh →
    ∀ ambient n, P (n + 1) (Store.entered ambient (n + 1) fresh)
  revised : ∀ {n : Nat} {old final : Object k}, P n old → Revises old final →
    P (n + 1) (final.withVersion (n + 1))

namespace Invariant

variable {P : Nat → Object k → Prop}

theorem move (inv : Invariant P) (h : s.Orderly) (m : Move s s')
    (before : ∀ place o, (place, o) ∈ s.objects → P s.revision o) :
    ∀ place o, (place, o) ∈ s'.objects → P s'.revision o := by
  intro place o mem
  rcases stands_of_move h m mem with ⟨there, counted⟩ | ⟨counted, stands⟩
  · exact inv.later counted (before place o there)
  · rw [counted]
    cases stands with
    | kept there => exact inv.later (Nat.le_succ _) (before place o there)
    | created ambient _ planned => exact inv.created planned ambient s.revision
    | revised there _ revises => exact inv.revised (before _ _ there) revises

theorem leads (inv : Invariant P) (h : s.Orderly) (l : Leads s s')
    (before : ∀ place o, (place, o) ∈ s.objects → P s.revision o) :
    ∀ place o, (place, o) ∈ s'.objects → P s'.revision o := by
  induction l with
  | refl => exact before
  | tail l m ih => exact inv.move (h.leads l) m ih

theorem after (inv : Invariant P) (policy : WritePolicy) (requests : List (Request k)) :
    ∀ o ∈ (Registry.after policy (.empty k) requests).toList,
      P (Registry.after policy (.empty k) requests).revision o := by
  intro o stored
  obtain ⟨⟨place, _⟩, mem, rfl⟩ := List.mem_map.1 stored
  have empty : (Store.empty k).Orderly := orderly_after policy []
  exact inv.leads empty (after_leads empty policy requests) (fun _ _ none => nomatch none) _ _ mem

end Invariant

/-- What ties an object to all that takes its place, whatever is called. -/
structure Bond (R : Object k → Object k → Prop) : Prop where
  refl : ∀ o, R o o
  trans : ∀ {a b c : Object k}, R a b → R b c → R a c
  revised : ∀ {old final : Object k}, final.key = old.key → Revises old final →
    ∀ n, R old (final.withVersion n)

namespace Bond

variable {R : Object k → Object k → Prop}

theorem leads (bond : Bond R) (h : s.Orderly) (l : Leads s s') {place : Nat} {o o' : Object k}
    (before : (place, o) ∈ s.objects) (after : (place, o') ∈ s'.objects) : R o o' := by
  -- From the end: the place was given out before the last move, so that move only revised it.
  induction l generalizing o' with
  | refl =>
    rw [h.indexed.object_unique before after]
    exact bond.refl o'
  | tail l m ih =>
    rcases stands_of_move (h.leads l) m after with ⟨there, -⟩ | ⟨-, stands⟩
    · exact ih there
    · cases stands with
      | kept there => exact ih there
      | created _ free _ =>
        have given := Nat.lt_of_lt_of_le (h.indexed.below _ _ before) (nextPlace_le h l)
        exact absurd free (Nat.ne_of_lt given)
      | revised there key revises => exact bond.trans (ih there) (bond.revised key revises _)

theorem after (bond : Bond R) (policy : WritePolicy) (requests more : List (Request k))
    {place : Nat} {o o' : Object k}
    (before : (place, o) ∈ (Registry.after policy (.empty k) requests).objects)
    (after : (place, o') ∈ (Registry.after policy (.empty k) (requests ++ more)).objects) :
    R o o' := by
  have h := orderly_after policy requests
  rw [after_append] at after
  exact bond.leads h (after_leads h policy more) before after

end Bond

end Registry

end FleetRegistry
