import FleetRegistry.Proofs.Registry.Changes

/-!
Identity and versions. An object keeps what identifies it from its creation to its removal, whatever
is called. Every change of the store is one event with the next revision, which becomes the version
of the object, so versions only grow.
-/
namespace FleetRegistry

variable {k : Kind}

/-- What identifies an object; no namespace is the same as an empty one. -/
def ObjectMeta.identity (m : ObjectMeta) :
    Option String × Option String × Option Instant × String :=
  (m.name, m.uid, m.creationTimestamp, m.namespaceText)

namespace Registry

variable {old new final : Object k} {now : Instant} {finalizers : List String}

theorem eq_of_texts {a b : Option String} (same : a.getD "" = b.getD "") (given : b.getD "" ≠ "") :
    a = b := by
  cases a <;> cases b <;> simp_all

theorem marked_identity :
    (marked now finalizers old).metadata.identity = old.metadata.identity := by
  unfold marked Object.mapMeta
  dsimp only
  split <;> rfl

theorem prepared_identity (named : old.IsNamed)
    (accepted : ((completed new old).prepareUpdate .main old).updateErrors .main old = []) :
    ((completed new old).prepareUpdate .main old).metadata.identity = old.metadata.identity := by
  simp only [Object.updateErrors, List.append_eq_nil_iff, ObjectMeta.updateErrors_eq_nil_iff]
    at accepted
  obtain ⟨⟨name, space, uid, since, -⟩, -⟩ := accepted
  have sameName : new.metadata.name = old.metadata.name := eq_of_texts name named
  -- An identity that the writer does not give is taken over; one that is given has to agree.
  have sameUid : (completed new old).metadata.uid = old.metadata.uid := by
    by_cases given : new.metadata.uidText.isEmpty = true
    · simp [completed, Object.mapMeta, given]
    · have kept : (completed new old).metadata.uid = new.metadata.uid := by
        simp [completed, Object.mapMeta, given]
      refine eq_of_texts uid fun none => given ?_
      have text : (completed new old).metadata.uidText = "" := uid.trans none
      simpa [ObjectMeta.uidText, kept] using text
  simp only [ObjectMeta.identity, Prod.mk.injEq]
  exact ⟨sameName, sameUid, since, space⟩

theorem identity_of_revises (named : old.IsNamed) (h : Revises old final) :
    final.metadata.identity = old.metadata.identity := by
  cases h with
  | main new accepted => exact prepared_identity named accepted
  | status new => rfl
  | marked now propagation => exact marked_identity

theorem identity_bond : Bond (k := k) fun o o' =>
    o.IsNamed → o'.IsNamed ∧ o'.metadata.identity = o.metadata.identity where
  refl _ named := ⟨named, rfl⟩
  trans first next named :=
    have ⟨named', same⟩ := first named
    have ⟨named'', same'⟩ := next named'
    ⟨named'', same'.trans same⟩
  revised {old final} _ revises _ named := by
    have same := identity_of_revises named revises
    have name : final.metadata.name = old.metadata.name := congrArg (·.1) same
    refine ⟨?_, same⟩
    show final.IsNamed
    unfold Object.IsNamed ObjectMeta.nameText
    rw [name]
    exact named

theorem identity_after (policy : WritePolicy) (requests more : List (Request k)) {place : Nat}
    {o o' : Object k} (before : (place, o) ∈ (after policy (.empty k) requests).objects)
    (later : (place, o') ∈ (after policy (.empty k) (requests ++ more)).objects) :
    o'.metadata.identity = o.metadata.identity := by
  have h := orderly_after policy requests
  have there := h.indexed.view_of_mem before
  exact (identity_bond.after policy requests more before later (h.named _ _ there)).2

end Registry

namespace Store

variable {s s' : Store k} {log more : List (Event k)}

theorem Remembers.same_or_later (h : s.Remembers log) (h' : s'.Remembers (log ++ more))
    {key : ObjectKey} {o o' : Object k} (before : s.view key = some o)
    (after : s'.view key = some o') :
    o' = o ∨ ∃ n, s.revision < n ∧ o'.metadata.resourceVersion = some (Nat.repr n) := by
  rw [h.view] at before
  rw [h'.view] at after
  rcases Event.replay_append_eq_some after with ⟨e, mem, rfl⟩ | held
  · exact .inr ⟨e.revision, h.revision ▸ h'.legal.lt_revision_after mem,
      h'.legal.version_of_mem mem⟩
  · exact .inl (Option.some.inj (held.symm.trans before))

end Store

namespace Registry

/-- Between two moments of any run of calls an object keeps its name, its identity, its time of
creation and its namespace, and is unchanged or carries a revision of between. What is held comes
from the events of the run, whose versions are all revisions in their order; without one between two
moments nothing changes. -/
theorem identity_and_versions (policy : WritePolicy) (requests more : List (Request k)) :
    let s := after policy (.empty k) requests
    let s' := after policy s more
    let before := published policy (.empty k) requests
    let events := published policy s more
    (∀ place o o', (place, o) ∈ s.objects → (place, o') ∈ s'.objects →
      o'.metadata.identity = o.metadata.identity
        ∧ (o' = o ∨ ∃ n, s.revision < n ∧ o'.metadata.resourceVersion = some (Nat.repr n)))
    ∧ before.map (·.object.metadata.resourceVersion)
      = (List.range' 1 s.revision).map (some <| Nat.repr ·)
    ∧ events.map (·.object.metadata.resourceVersion)
      = (List.range' (s.revision + 1) events.length).map (some <| Nat.repr ·)
    ∧ s.view = Event.replay before ∧ s'.view = Event.replay (before ++ events)
    ∧ (events = [] → s' = s) := by
  intro s s' before events
  have start : s.Remembers before := by
    simpa using Store.remembers_empty.after_calls policy requests
  have later : s'.Remembers (before ++ events) := start.after_calls policy more
  refine ⟨fun place o o' mem mem' => ⟨?_, ?_⟩, ?_, ?_, start.view, later.view, fun quiet => ?_⟩
  · exact identity_after policy requests more mem (by rw [after_append]; exact mem')
  · have writes : s' = s.after (writes policy s more) := after_eq policy s more
    have key : o'.key = o.key := start.indexed.key_at mem _ (writes ▸ mem')
    exact start.same_or_later later (start.indexed.view_eq_some_iff.2 ⟨⟨place, mem⟩, rfl⟩)
      (later.indexed.view_eq_some_iff.2 ⟨⟨place, mem'⟩, key⟩)
  · rw [start.revision]
    have legal : Event.Legal ([] ++ before) := start.legal
    exact legal.versions_after
  · rw [start.revision]
    exact later.legal.versions_after
  · rw [show s' = s.after _ from after_eq policy s more]
    exact start.after_eq_self quiet

/-- A cluster that is to get another identity, which is refused, and then gets a label. -/
theorem identity_and_versions_labelled :
    let labelled := (Object.bareCluster "a").mapMeta fun m =>
      { m with labels := some (.ofList [("tier", "one")]) }
    let document := Json.obj [("metadata", .obj [("uid", .str "other")])]
    let s := after {} (.empty .cluster) [.plain (.create (.bareCluster "a") {})]
    let s' := after {} s [.plain (.patch "a" ⟨.merge, document, none⟩ {}),
      .plain (.update .main labelled {})]
    ∃ o o', s.objects = [(0, o)] ∧ s'.objects = [(0, o')]
      ∧ o'.metadata.identity = o.metadata.identity
      ∧ ∃ n, 1 < n ∧ o'.metadata.resourceVersion = some (Nat.repr n) := by
  intro labelled document s s'
  have before : s.objects.map (fun e => (e.1, e.2.metadata.labels)) = [(0, none)] := by
    decide +kernel
  have later : s'.objects.map (fun e => (e.1, e.2.metadata.labels.isSome)) = [(0, true)] := by
    decide +kernel
  obtain ⟨⟨place, o⟩, stored, parts⟩ := List.map_eq_singleton_iff.1 before
  obtain ⟨⟨place', o'⟩, stored', parts'⟩ := List.map_eq_singleton_iff.1 later
  simp only [Prod.mk.injEq] at parts parts'
  obtain ⟨rfl, unlabelled⟩ := parts
  obtain ⟨rfl, changed⟩ := parts'
  have ⟨kept, _⟩ := identity_and_versions {} [.plain (.create (.bareCluster "a") {})]
    [.plain (.patch "a" ⟨.merge, document, none⟩ {}), .plain (.update .main labelled {})]
  have ⟨identity, version⟩ := kept 0 o o' (stored ▸ List.mem_singleton_self _)
    (stored' ▸ List.mem_singleton_self _)
  have revision : s.revision = 1 := by decide +kernel
  refine ⟨o, o', stored, stored', identity, ?_⟩
  rcases version with same | ⟨n, grown, carries⟩
  · simp [same, unlabelled] at changed
  · exact ⟨n, revision ▸ grown, carries⟩

end Registry

end FleetRegistry
