import FleetRegistry.Proofs.Registry.Edits
import FleetRegistry.Proofs.Registry.Validity
import Mathlib.Data.List.Forall2

/-!
Locality of writes. What a call about one stored object does depends on that object alone, and
changes that object alone. So calls about different objects can be taken in either order. What they
leave then differs in versions, and in the times at which deletions began.
-/
namespace FleetRegistry

variable {k : Kind} {t t' : Instant}

/-! ## Alike -/

/-- Objects that differ at most in their versions and in the time at which a call marked them for
deletion. -/
structure Object.Alike (t t' : Instant) (o o' : Object k) : Prop where
  spec : o.spec = o'.spec
  status : o.status = o'.status
  deletion : o.metadata.deletionTimestamp = o'.metadata.deletionTimestamp
    ∨ o.metadata.deletionTimestamp = some t ∧ o'.metadata.deletionTimestamp = some t'
  others : { o.metadata with resourceVersion := none, deletionTimestamp := none }
    = { o'.metadata with resourceVersion := none, deletionTimestamp := none }

inductive Outcome.Rel {α : Type} (R : α → α → Prop) : Outcome α → Outcome α → Prop
  | error (error : RegistryError) : Rel R (.error error) (.error error)
  | ok {a a' : α} (related : R a a') : Rel R (.ok a) (.ok a')

theorem Outcome.Rel.refl {α : Type} {R : α → α → Prop} (each : ∀ a, R a a)
    (outcome : Outcome α) : Outcome.Rel R outcome outcome := by
  cases outcome with
  | error error => exact .error error
  | ok a => exact .ok (each a)

theorem Outcome.Rel.imp {α : Type} {R R' : α → α → Prop} {outcome outcome' : Outcome α}
    (h : Outcome.Rel R outcome outcome') (implies : ∀ {a a'}, R a a' → R' a a') :
    Outcome.Rel R' outcome outcome' := by
  cases h with
  | error error => exact .error error
  | ok related => exact .ok (implies related)

/-- Answers of calls about one object that differ at most as the object does. -/
inductive Answer.Alike (t t' : Instant) : Answer k (Watch k) → Answer k (Watch k) → Prop
  | object {o o' : Object k} (alike : o.Alike t t' o') : Alike t t' (.object o) (.object o')
  | deleted : Alike t t' (.deletion .deleted) (.deletion .deleted)
  | pending {o o' : Object k} (alike : o.Alike t t' o') :
    Alike t t' (.deletion (.pending o)) (.deletion (.pending o'))

abbrev SameVerdict (t t' : Instant) :
    Outcome (Answer k (Watch k)) → Outcome (Answer k (Watch k)) → Prop :=
  Outcome.Rel (Answer.Alike t t')

inductive Plan.Alike (t t' : Instant) : Plan k → Plan k → Prop
  | same (plan : Plan k) : Alike t t' plan plan
  | put {final final' : Object k} (alike : final.Alike t t' final') :
    Alike t t' (.put final) (.put final')

namespace Object.Alike

variable {o o' : Object k}

theorem refl (t t' : Instant) (o : Object k) : o.Alike t t' o := ⟨rfl, rfl, .inl rfl, rfl⟩

theorem withVersion (h : o.Alike t t' o') (n n' : Nat) :
    (o.withVersion n).Alike t t' (o'.withVersion n') :=
  ⟨h.spec, h.status, h.deletion, h.others⟩

theorem marked (t t' : Instant) (finalizers : List String) (o : Object k) :
    (Registry.marked t finalizers o).Alike t t' (Registry.marked t' finalizers o) := by
  cases deleting : o.metadata.isDeleting with
  | true =>
    rw [Registry.marked_of_deleting deleting, Registry.marked_of_deleting deleting]
    exact refl ..
  | false =>
    rw [Registry.marked_of_live deleting, Registry.marked_of_live deleting]
    exact ⟨rfl, rfl, .inr ⟨rfl, rfl⟩, rfl⟩

end Object.Alike

namespace Plan.Alike

variable {plan plan' : Plan k}

theorem object (h : plan.Alike t t' plan') : plan.object.Alike t t' plan'.object := by
  cases h with
  | same => exact .refl ..
  | put alike => exact alike

theorem yields (h : plan.Alike t t' plan') (n n' : Nat) (old : Object k) :
    (plan.yields n old).Alike t t' (plan'.yields n' old) := by
  cases h with
  | put alike => exact alike.withVersion n n'
  | same =>
    cases plan with
    | keep o => exact .refl ..
    | put final => exact (Object.Alike.refl ..).withVersion n n'
    | remove o version => exact (Object.Alike.refl ..).withVersion n n'

theorem leaves (h : plan.Alike t t' plan') (n n' : Nat) (old : Object k) :
    Option.Rel (Object.Alike t t') (plan.leaves n old) (plan'.leaves n' old) := by
  cases h with
  | put alike => exact .some (alike.withVersion n n')
  | same =>
    cases plan with
    | keep o => exact .some (.refl ..)
    | put final => exact .some ((Object.Alike.refl ..).withVersion n n')
    | remove o version => exact .none

theorem writes (h : plan.Alike t t' plan') : plan.writes = plan'.writes := by
  cases h <;> rfl

end Plan.Alike

namespace Registry

variable {policy : WritePolicy} {s s' : Store k} {e : Edit k}

/-! ## Edits of the same object -/

theorem planDelete_alike (t t' : Instant) (options : DeleteOptions) (o : Object k) :
    Outcome.Rel (Plan.Alike t t') (planDelete t options o) (planDelete t' options o) := by
  unfold planDelete
  split
  next error _ => exact .error error
  next =>
    simp only
    split
    next => exact .ok (.same _)
    next =>
      split
      next => exact .ok (.same _)
      next => exact .ok (.put (.marked ..))

theorem Concludes.alike {dryRun : Bool} {plan plan' : Plan k} {old : Object k}
    {r r' : Outcome (Object k) × Store k} (c : Concludes dryRun plan old s r)
    (c' : Concludes dryRun plan' old s' r') (alike : plan.Alike t t' plan') :
    (∃ o o', r.1 = .ok o ∧ r'.1 = .ok o' ∧ o.Alike t t' o')
      ∧ Option.Rel (Object.Alike t t') (r.2.view old.key) (r'.2.view old.key)
      ∧ r.2.revision + s'.revision = r'.2.revision + s.revision := by
  rw [c.view, c'.view, Function.update_self, Function.update_self, c.revision, c'.revision]
  cases dryRun with
  | true => exact ⟨⟨_, _, c.answer, c'.answer, alike.object⟩, .some (.refl ..), Nat.add_comm ..⟩
  | false =>
    refine ⟨⟨_, _, c.answer, c'.answer, alike.yields ..⟩, alike.leaves .., ?_⟩
    simp only [Bool.false_eq_true, if_false, alike.writes]
    omega

theorem edit_plan_alike {ns : Option String} {call : Call k}
    (edits : call.edit? policy ns = some e) (t t' : Instant) (found : Outcome (Object k)) :
    Outcome.Rel (Plan.Alike t t') (e.plan t found) (e.plan t' found) := by
  cases call <;> simp only [Call.edit?, reduceCtorEq, Option.map_eq_some_iff] at edits
  case update =>
    obtain ⟨space, -, rfl⟩ := edits
    exact .refl .same _
  case patch =>
    obtain ⟨space, -, rfl⟩ := edits
    exact .refl .same _
  case delete =>
    obtain ⟨space, -, rfl⟩ := edits
    cases found with
    | error error => exact .error error
    | ok old => exact planDelete_alike t t' _ old

namespace Edit

theorem answer_alike {plan plan' : Plan k} (h : plan.Alike t t' plan') {o o' : Object k}
    (alike : o.Alike t t' o') : Answer.Alike t t' (e.answer plan o) (e.answer plan' o') := by
  unfold answer
  split
  next =>
    cases h with
    | put => exact .pending alike
    | same =>
      cases plan with
      | keep => exact .pending alike
      | put => exact .pending alike
      | remove => exact .deleted
  next => exact .object alike

namespace Ends

variable {r r' : Outcome (Answer k (Watch k)) × Store k}

theorem placed (h : s.Indexed) (ends : e.Ends t s r) :
    r.2.objects = Store.placing e.key (r.2.view e.key) s.objects := by
  cases ends with
  | refused => exact (h.placing_view e.key).symm
  | done there key planned concludes =>
    simp only [answering, concludes.objects, concludes.view, key, Function.update_self]

theorem elsewhere (ends : e.Ends t s r) {other : ObjectKey} (ne : other ≠ e.key) :
    r.2.view other = s.view other := by
  cases ends with
  | refused => rfl
  | done there key planned concludes =>
    simp only [answering, concludes.view, key, Function.update_of_ne ne]

/-- How two edits end whose plans go together: both are refused with the same error, or both plans
are concluded. -/
inductive Together (t t' : Instant) (e e' : Edit k) (s s' : Store k) :
    Outcome (Answer k (Watch k)) × Store k → Outcome (Answer k (Watch k)) × Store k → Prop
  | refused (error : RegistryError) : Together t t' e e' s s' (.error error, s) (.error error, s')
  | done {old old' : Object k} {plan plan' : Plan k} {result result' : Outcome (Object k) × Store k}
    (there : s.view e.key = some old) (there' : s'.view e'.key = some old') (key : old.key = e.key)
    (alike : plan.Alike t t' plan') (concludes : Concludes e.dryRun plan old s result)
    (concludes' : Concludes e'.dryRun plan' old' s' result') :
    Together t t' e e' s s' (answering (e.answer plan) result) (answering (e'.answer plan') result')

theorem together {e' : Edit k} (ends : e.Ends t s r) (ends' : e'.Ends t' s' r')
    (plans : Outcome.Rel (Plan.Alike t t') (e.plan t (s.get e.space e.name))
      (e'.plan t' (s'.get e'.space e'.name))) : Together t t' e e' s s' r r' := by
  cases ends with
  | refused planned =>
    cases ends' with
    | refused planned' =>
      rw [planned, planned'] at plans
      cases plans
      exact .refused _
    | done there' key' planned' =>
      rw [planned, planned'] at plans
      cases plans
  | done there key planned concludes =>
    cases ends' with
    | refused planned' =>
      rw [planned, planned'] at plans
      cases plans
    | done there' key' planned' concludes' =>
      rw [planned, planned'] at plans
      cases plans with
      | ok alike => exact .done there there' key alike concludes concludes'

theorem alike (ends : e.Ends t s r) (ends' : e.Ends t' s' r')
    (plans : ∀ found, Outcome.Rel (Plan.Alike t t') (e.plan t found) (e.plan t' found))
    (same : s.view e.key = s'.view e.key) :
    SameVerdict t t' r.1 r'.1
      ∧ Option.Rel (Object.Alike t t') (r.2.view e.key) (r'.2.view e.key)
      ∧ r.2.revision + s'.revision = r'.2.revision + s.revision := by
  have found : s.get e.space e.name = s'.get e.space e.name := by
    rw [Store.get_eq, Store.get_eq, show s.view (.ofAddress k e.space e.name) = _ from same]
    rfl
  cases ends.together ends' (found ▸ plans _) with
  | refused error =>
    refine ⟨.error error, ?_, Nat.add_comm ..⟩
    rw [same]
    cases s'.view e.key with
    | none => exact .none
    | some o => exact .some (.refl ..)
  | @done old old' plan plan' result result' there there' key alike concludes concludes' =>
    obtain rfl : old = old' := Option.some.inj (there.symm.trans (same.trans there'))
    have ⟨⟨o, o', answer, answer', same⟩, left, count⟩ := concludes.alike concludes' alike
    rw [← key]
    refine ⟨?_, left, count⟩
    simp only [answering, answer, answer', Except.map]
    exact .ok (answer_alike alike same)

end Ends

theorem ends_perform (off : policy.createOnUpdate = false) {ns : Option String} {call : Call k}
    (edits : call.edit? policy ns = some e) (h : s.Orderly) (ambient : Ambient) :
    e.Ends ambient.now s (perform policy ambient ns call s) :=
  perform_edit off edits ▸ e.ends h ambient.now

end Edit

/-! ## Either order -/

/-- The same place, with objects that are alike for one of two calls. -/
def EntriesAlike (a a' b b' : Instant) (x x' : Nat × Object k) : Prop :=
  x.1 = x'.1 ∧ (x.2.Alike a a' x'.2 ∨ x.2.Alike b b' x'.2)

theorem placing_placing {R R₂ : Object k → Object k → Prop} (refl : ∀ o, R o o)
    {key key₂ : ObjectKey} (other : key ≠ key₂) {v v' w w' : Option (Object k)}
    (keyed : ∀ o, v = some o → o.key = key) (keyed₂ : ∀ o, w' = some o → o.key = key₂)
    (related : Option.Rel R v v') (related₂ : Option.Rel R₂ w w')
    (entries : List (Nat × Object k)) :
    List.Forall₂ (fun x x' => x.1 = x'.1 ∧ (R x.2 x'.2 ∨ R₂ x.2 x'.2))
      (Store.placing key₂ w (Store.placing key v entries))
      (Store.placing key v' (Store.placing key₂ w' entries)) := by
  unfold Store.placing
  rw [List.filterMap_filterMap, List.filterMap_filterMap]
  refine List.rel_filterMap (R := Eq) ?_ (List.forall₂_refl entries)
  rintro ⟨place, o⟩ _ rfl
  by_cases first : o.key = key
  · cases related with
    | none => simp [first, other]
    | @some x x' related => simp [first, other, keyed x rfl, related]
  · by_cases second : o.key = key₂
    · cases related₂ with
      | none => simp [second, other.symm]
      | @some x x' related => simp [second, other.symm, keyed₂ x' rfl, related]
    · simp [first, second, refl o]

/-- A call about one stored object changes no other one and moves none. Under its key it leaves the
same, and it has the same verdict, wherever the same is stored there, up to versions and to the time
at which it marks the object. So two calls about different objects come to the same in either
order. -/
theorem writes_local (policy : WritePolicy) (off : policy.createOnUpdate = false)
    (requests requests' : List (Request k)) (ns : Option String) (call : Call k) (key : ObjectKey)
    (aimed : call.target? ns = some key) (a a' : Ambient) :
    let s := after policy (.empty k) requests
    let s' := after policy (.empty k) requests'
    let r := perform policy a ns call s
    let r' := perform policy a' ns call s'
    r.2.objects = Store.placing key (r.2.view key) s.objects
    ∧ (∀ other, other ≠ key → r.2.view other = s.view other)
    ∧ (s.view key = s'.view key → SameVerdict a.now a'.now r.1 r'.1
        ∧ Option.Rel (Object.Alike a.now a'.now) (r.2.view key) (r'.2.view key))
    ∧ ∀ ns₂ (call₂ : Call k) key₂ b b', call₂.target? ns₂ = some key₂ → key ≠ key₂ →
      let second := perform policy b ns₂ call₂ r.2
      let first' := perform policy b' ns₂ call₂ s
      let second' := perform policy a' ns call first'.2
      SameVerdict a.now a'.now r.1 second'.1 ∧ SameVerdict b.now b'.now second.1 first'.1
      ∧ second.2.revision = second'.2.revision
      ∧ List.Forall₂ (EntriesAlike a.now a'.now b.now b'.now) second.2.objects
        second'.2.objects := by
  intro s s' r r'
  obtain ⟨e, edits, rfl⟩ := call.edit?_of_target aimed policy
  have h : s.Orderly := orderly_after policy requests
  have h' : s'.Orderly := orderly_after policy requests'
  have ends : e.Ends a.now s r := e.ends_perform off edits h a
  refine ⟨ends.placed h.indexed, fun _ => ends.elsewhere, fun same => ?_, ?_⟩
  · have ⟨verdict, left, _⟩ := ends.alike (e.ends_perform off edits h' a')
      (edit_plan_alike edits _ _) same
    exact ⟨verdict, left⟩
  intro ns₂ call₂ key₂ b b' aimed₂ other second first' second'
  obtain ⟨e₂, edits₂, rfl⟩ := call₂.edit?_of_target aimed₂ policy
  have hr : r.2.Orderly := h.leads (perform_leads h policy a ns call)
  have hf : first'.2.Orderly := h.leads (perform_leads h policy b' ns₂ call₂)
  have ends₂ : e₂.Ends b.now r.2 second := e₂.ends_perform off edits₂ hr b
  have endsF : e₂.Ends b'.now s first' := e₂.ends_perform off edits₂ h b'
  have endsS : e.Ends a'.now first'.2 second' := e.ends_perform off edits hf a'
  -- Each call finds under its key what it would find if it came first.
  have ⟨verdict, left, count⟩ :=
    ends.alike endsS (edit_plan_alike edits _ _) (endsF.elsewhere other).symm
  have ⟨verdict₂, left₂, count₂⟩ :=
    ends₂.alike endsF (edit_plan_alike edits₂ _ _) (ends.elsewhere other.symm)
  refine ⟨verdict, verdict₂, by omega, ?_⟩
  rw [ends₂.placed hr.indexed, ends.placed h.indexed, endsS.placed hf.indexed,
    endsF.placed h.indexed]
  exact placing_placing (Object.Alike.refl _ _) other
    (fun _ there => (hr.indexed.view_eq_some_iff.1 there).2)
    (fun _ there => (hf.indexed.view_eq_some_iff.1 there).2) left left₂ s.objects

def minuteLater : Ambient :=
  { Ambient.plain with now := { seconds := 60, nanos := Ambient.plain.now.nanos } }

def clusters (names : List String) : List (Request .cluster) :=
  names.map fun name => .plain (.create (.bareCluster name) {})

def marking : Call .cluster := .delete "a" { propagationPolicy := some .foreground }

def labelling : Call .cluster :=
  .update .main ((Object.bareCluster "b").mapMeta fun m =>
    { m with labels := some (.ofList [("tier", "one")]) }) {}

def markedAmong (ambient : Ambient) (names : List String) :
    Outcome (Answer .cluster (Watch .cluster)) × Store .cluster :=
  perform {} ambient none marking (after {} (.empty .cluster) (clusters names))

def markedThenLabelled : Store .cluster :=
  (perform {} .plain none labelling (markedAmong .plain ["a", "b"]).2).2

def labelledThenMarked : Store .cluster :=
  let s := after {} (.empty .cluster) (clusters ["a", "b"])
  (perform {} minuteLater none marking (perform {} .plain none labelling s).2).2

/-- A cluster is marked for deletion with another one beside it and without it, and before and after
that one gets a label. -/
theorem writes_local_marked :
    SameVerdict Ambient.plain.now minuteLater.now (markedAmong .plain ["a", "b"]).1
        (markedAmong minuteLater ["a"]).1
      ∧ List.Forall₂
        (EntriesAlike Ambient.plain.now minuteLater.now Ambient.plain.now Ambient.plain.now)
        markedThenLabelled.objects labelledThenMarked.objects
      ∧ markedThenLabelled.objects.map (·.2.metadata.deletionTimestamp)
        = [some Ambient.plain.now, none]
      ∧ labelledThenMarked.objects.map (·.2.metadata.deletionTimestamp)
        = [some minuteLater.now, none] := by
  have ⟨_, _, there, order⟩ := writes_local {} rfl (clusters ["a", "b"]) (clusters ["a"]) none
    marking ⟨"", "a"⟩ rfl .plain minuteLater
  have ⟨verdict, _⟩ := there (by decide +kernel)
  have ⟨_, _, _, objects⟩ := order none labelling ⟨"", "b"⟩ .plain .plain rfl (by decide)
  exact ⟨verdict, objects, by decide +kernel, by decide +kernel⟩

end Registry

end FleetRegistry
