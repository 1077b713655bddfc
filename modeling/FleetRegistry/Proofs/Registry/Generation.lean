import FleetRegistry.Proofs.Registry.Collections

/-!
Generations. The generation of an object counts the changes of what is declared of it, and the
beginning of its deletion. No caller has a say in it: a call raises it by one or leaves it alone,
and only a write of the object raises it, so that it never gets ahead of the writes.
-/
namespace FleetRegistry

variable {k : Kind}

namespace Call

/-- Whether a call is about the declared side of an object. -/
def declares : Call k → Bool
  | update side .. => side = .main
  | patch _ document _ => document.side.toOption = some .main
  | get _ | list _ | watch _ | create .. | delete .. | deleteCollection .. => false

def deletes : Call k → Bool
  | delete .. | deleteCollection .. => true
  | get _ | list _ | watch _ | create .. | update .. | patch .. => false

/-- Whether a call raises the generation of an object by what it makes of it: it declares something
else, or its deletion begins the deletion of the object. -/
def raises (call : Call k) (old new : Object k) : Bool :=
  call.declares && new.spec ≠ old.spec
    || call.deletes && !old.metadata.isDeleting && new.metadata.isDeleting

def Counts (call : Call k) (old new : Object k) : Prop :=
  ∀ g, old.metadata.generation = some g →
    new.metadata.generation = some (if call.raises old new then g + 1 else g)

variable {call : Call k} {old new : Object k}

@[simp] theorem raises_self (call : Call k) (o : Object k) : call.raises o o = false := by
  simp [raises]

theorem counts_self (call : Call k) (o : Object k) : call.Counts o o := by
  intro g generation
  simp [generation]

end Call

namespace Registry

variable {policy : WritePolicy} {ambient : Ambient} {ns : Option String} {s s' : Store k}
  {call : Call k} {old o : Object k} {place : Nat}

/-! ## One object -/

theorem eq_of_planChange_leaves {final : Object k} {revision : Nat}
    (left : (planChange final old).leaves revision old = some o) :
    o = old ∨ o = final.withVersion revision := by
  cases planned : planChange final old with
  | keep =>
    rw [planned] at left
    exact .inl (Option.some.inj left).symm
  | put x =>
    obtain ⟨rfl, -⟩ := planChange_eq_put planned
    rw [planned] at left
    exact .inr (Option.some.inj left).symm
  | remove =>
    rw [planned] at left
    cases left

theorem counts_update {side : WriteSide} {name : String} {new : Object k} {plan : Plan k}
    {revision : Nat} (planned : planUpdate policy side name new old = .ok plan)
    (left : plan.leaves revision old = some o) (declares : call.declares = decide (side = .main))
    (keeps : call.deletes = false) : call.Counts old o := by
  obtain ⟨-, -, rfl⟩ := planUpdate_eq_ok planned
  rcases eq_of_planChange_leaves left with rfl | rfl
  · exact call.counts_self o
  intro g generation
  cases side with
  | main =>
    have next : Object.nextGeneration (completed new old) old
        = if new.spec = old.spec then g else g + 1 := by
      simp only [Object.nextGeneration, generation]
      rfl
    unfold Call.raises
    rw [declares, keeps]
    refine (congrArg some next).trans ?_
    show _ = some (if (_ && decide (new.spec ≠ old.spec) || _ && _) = true then g + 1 else g)
    by_cases same : new.spec = old.spec <;> simp [same]
  | status =>
    simp only [Call.raises, declares, keeps]
    exact generation

theorem eq_of_planDelete_leaves {now : Instant} {options : DeleteOptions} {plan : Plan k}
    {revision : Nat} (planned : planDelete now options old = .ok plan)
    (left : plan.leaves revision old = some o) :
    o = old ∨ ∃ finalizers, o = (marked now finalizers old).withVersion revision := by
  unfold planDelete at planned
  split at planned
  next => cases planned
  next =>
    dsimp only at planned
    split at planned
    next =>
      cases planned
      cases left
    next =>
      split at planned
      next =>
        cases planned
        exact .inl (Option.some.inj left).symm
      next =>
        cases planned
        exact .inr ⟨_, (Option.some.inj left).symm⟩

theorem counts_delete {now : Instant} {options : DeleteOptions} {plan : Plan k} {revision : Nat}
    (planned : planDelete now options old = .ok plan) (left : plan.leaves revision old = some o)
    (declares : call.declares = false) (deletes : call.deletes = true) : call.Counts old o := by
  rcases eq_of_planDelete_leaves planned left with rfl | ⟨finalizers, rfl⟩
  · exact call.counts_self o
  intro g generation
  unfold Call.raises
  rw [declares, deletes]
  cases begun : old.metadata.isDeleting with
  | true =>
    rw [marked_of_deleting begun]
    exact generation
  | false =>
    rw [marked_of_live begun]
    simp [Object.withVersion, Object.mapMeta, ObjectMeta.isDeleting, generation]

/-! ## One call -/

/-- How an object comes to stand at a place after a call: it was there before, and the call counts,
or it is new, with the first generation. -/
inductive Arises (call : Call k) (s : Store k) (place : Nat) (o : Object k) : Prop
  | stood {old : Object k} (before : (place, old) ∈ s.objects) (counts : call.Counts old o)
  | created (free : place = s.nextPlace) (absent : s.view o.key = none)
    (first : o.metadata.generation = some 1)

theorem Arises.kept (before : (place, o) ∈ s.objects) : Arises call s place o :=
  .stood before (call.counts_self o)

theorem Edit.Ends.origin {e : Edit k} {now : Instant}
    {result : Outcome (Answer k (Watch k)) × Store k} (h : s.Indexed) (ends : e.Ends now s result)
    (mem : (place, o) ∈ result.2.objects) :
    ∃ old, (place, old) ∈ s.objects ∧ (o = old ∨ ∃ plan, e.plan now (.ok old) = .ok plan
      ∧ plan.leaves (s.revision + 1) old = some o) := by
  have stood : ∃ old, (place, old) ∈ s.objects := by
    rw [ends.placed h, Store.mem_placing] at mem
    rcases mem with ⟨old, before, -⟩ | ⟨before, -⟩ <;> exact ⟨_, before⟩
  obtain ⟨old, before⟩ := stood
  obtain ⟨left, entry, kept | ⟨plan, planned, rfl⟩⟩ := ends.entry h before
  · exact ⟨old, before, .inl (Option.some.inj (((entry o).1 mem).symm.trans kept))⟩
  · exact ⟨old, before, .inr ⟨plan, planned, (entry o).1 mem⟩⟩

theorem counts_edit {e : Edit k} {now : Instant} {plan : Plan k} {revision : Nat}
    (edits : call.edit? policy ns = some e) (planned : e.plan now (.ok old) = .ok plan)
    (left : plan.leaves revision old = some o) : call.Counts old o := by
  cases call <;> simp only [Call.edit?, reduceCtorEq, Option.map_eq_some_iff] at edits <;>
    obtain ⟨space, -, rfl⟩ := edits
  case update side new options =>
    obtain ⟨_, ⟨⟩, planned⟩ := planUpdateAt_eq_ok planned
    exact counts_update planned left rfl rfl
  case patch name document options =>
    obtain ⟨side, new, _, sided, ⟨⟩, planned⟩ := planPatch_eq_ok planned
    refine counts_update planned left ?_ rfl
    cases side <;> simp [Call.declares, sided, Except.toOption]
  case delete name options =>
    have planned : planDelete now options old = .ok plan := planned
    exact counts_delete planned left rfl rfl

theorem arises_of_edit (h : s.Orderly) (keeps : ¬ call.Creates policy s)
    (isEdit : call.isEdit = true)
    (mem : (place, o) ∈ (perform policy ambient ns call s).2.objects) :
    Arises call s place o := by
  rw [perform_of_not_creates keeps] at mem
  cases edits : call.edit? { policy with createOnUpdate := false } ns with
  | none =>
    obtain ⟨error, refused⟩ := perform_of_unaddressed (s := s) isEdit edits
    have itself : call.trying call.dryRun = call := by cases call <;> rfl
    rw [← itself, refused ambient call.dryRun] at mem
    exact .kept mem
  | some e =>
    rw [perform_edit rfl edits] at mem
    obtain ⟨old, before, rfl | ⟨plan, planned, left⟩⟩ := (e.ends h ambient.now).origin h.indexed mem
    · exact .kept before
    · exact .stood before (counts_edit edits planned left)

theorem arises_of_create {given : Object k} {options : WriteOptions}
    (mem : (place, o) ∈ (perform policy ambient ns (.create given options) s).2.objects) :
    Arises call s place o := by
  simp only [perform, answering, create] at mem
  split at mem
  next => exact .kept mem
  next fresh planned =>
    split at mem
    next => exact .kept mem
    next =>
      rcases Store.create_cases ambient fresh s with ⟨error, eq⟩ | ⟨absent, eq⟩
      · rw [eq] at mem
        exact .kept mem
      · rw [eq, Store.record_objects, Store.mem_inserted_objects] at mem
        rcases mem with before | ⟨free, rfl⟩
        · exact .kept before
        · obtain ⟨-, rfl⟩ := planCreate_eq_ok planned
          exact .created free absent rfl

theorem arises_of_update {side : WriteSide} {new : Object k} {options : WriteOptions}
    (h : s.Orderly)
    (mem : (place, o) ∈ (perform policy ambient ns (.update side new options) s).2.objects) :
    Arises (.update side new options) s place o := by
  by_cases creates : (Call.update side new options).Creates policy s
  · by_cases named : new.anyName = ""
    · obtain ⟨-, space, inScope, -⟩ := creates
      simp only [perform, update, inScope, updateAt, named] at mem
      exact .kept mem
    · rw [perform_of_creates creates named] at mem
      exact arises_of_create mem
  · exact arises_of_edit h creates rfl mem

theorem counts_congr {t t' : Instant} {o' : Object k} (counts : call.Counts old o')
    (alike : o.Alike t t' o') : call.Counts old o := by
  have generation : o.metadata.generation = o'.metadata.generation :=
    congrArg (·.generation) alike.others
  have deleting : o.metadata.isDeleting = o'.metadata.isDeleting := by
    unfold ObjectMeta.isDeleting
    rcases alike.deletion with same | ⟨since, since'⟩
    · rw [same]
    · rw [since, since']
      rfl
  unfold Call.Counts Call.raises
  rw [generation, deleting, alike.spec]
  exact counts

theorem counts_deleteAlone {options : DeleteOptions} (h : s.Orderly) (addressed : Addressed old)
    (stored : s.view old.key = some old)
    (left : (deleteAlone policy options ambient old s).2.view old.key = some o)
    (declares : call.declares = false) (deletes : call.deletes = true) : call.Counts old o := by
  obtain ⟨place, before⟩ := (h.indexed.view_eq_some_iff.1 stored).1
  have ends := ends_deleteAlone h addressed policy options ambient
  have mem : (place, o) ∈ (deleteAlone policy options ambient old s).2.objects := by
    rw [ends.placed h.indexed, key_ownDeletion, Store.mem_placing]
    exact .inl ⟨old, before, rfl, left⟩
  obtain ⟨x, before', same | ⟨plan, planned, leaves⟩⟩ := ends.origin h.indexed mem
  all_goals obtain rfl := h.indexed.object_unique before' before
  · exact same ▸ call.counts_self o
  · have planned : planDelete ambient.now options x = .ok plan := planned
    exact counts_delete planned leaves declares deletes

theorem counts_deletesEach {list : List (Object k)} (listed : Listed list s)
    {options : DeleteOptions} (deletesEach : DeletesEach policy options ambient list s s')
    (stored : s.view old.key = some old) (left : s'.view old.key = some o)
    (declares : call.declares = false) (deletes : call.deletes = true) : call.Counts old o := by
  by_cases chosen : old ∈ list
  · have alone := deletesEach.each old chosen listed.orderly stored ambient
    rw [left] at alone
    generalize single : (deleteAlone policy options ambient old s).2.view old.key = x at alone
    cases alone with
    | some alike =>
      have addressed := listed.addressed old chosen
      have counts := counts_deleteAlone listed.orderly addressed stored single declares deletes
      exact counts_congr counts alike
  · rw [deletesEach.others _ (listed.key_not_mem stored chosen), stored] at left
    exact Option.some.inj left ▸ call.counts_self old

theorem arises_of_deleteCollection (policy : WritePolicy) (requests : List (Request k))
    {listed : ListOptions} {options : DeleteOptions}
    (mem : (place, o) ∈ (perform policy ambient ns (.deleteCollection listed options)
      (after policy (.empty k) requests)).2.objects) :
    Arises (.deleteCollection listed options) (after policy (.empty k) requests) place o := by
  cases wellFormed : Selection.ofListOptions listed with
  | error error =>
    simp only [perform, deleteCollection, wellFormed, answering] at mem
    exact .kept mem
  | ok selection =>
    have all : Listed _ (after policy (.empty k) requests) := listed_selected ns selection
    have each := deletesEach all policy options ambient
    rw [perform_deleteCollection wellFormed] at mem
    simp only [answering] at mem
    rw [deleteEach_eq all policy, each.objects, List.mem_filterMap] at mem
    obtain ⟨⟨p, old⟩, before, entry⟩ := mem
    obtain ⟨x, left, eq⟩ := Option.map_eq_some_iff.1 entry
    obtain ⟨rfl, rfl⟩ := Prod.mk.inj eq
    have stored := all.orderly.indexed.view_of_mem before
    exact .stood before (counts_deletesEach all each stored left rfl rfl)

/-- Whatever is called: each object that stands after it stood before, with a generation that the
call counts, or is new. -/
theorem arises_of_perform (policy : WritePolicy) (requests : List (Request k)) (r : Request k)
    (mem : (place, o) ∈ (after policy (.empty k) (requests ++ [r])).objects) :
    Arises r.call (after policy (.empty k) requests) place o := by
  have h := orderly_after policy requests
  rw [after_append] at mem
  obtain ⟨ambient, ns, call⟩ := r
  have mem : (place, o) ∈ (perform policy ambient ns call _).2.objects := mem
  cases call with
  | get | list | watch => exact .kept mem
  | create given options => exact arises_of_create mem
  | update side new options => exact arises_of_update h mem
  | patch name document options => exact arises_of_edit h not_false rfl mem
  | delete name options => exact arises_of_edit h not_false rfl mem
  | deleteCollection listed options => exact arises_of_deleteCollection policy requests mem

/-! ## Runs -/

/-- How many writes of an object were accepted in some calls: each of them left an event. -/
def accepted (policy : WritePolicy) (s : Store k) (requests : List (Request k))
    (key : ObjectKey) : Nat :=
  (published policy s requests).countP (·.object.key = key)

theorem accepted_append (policy : WritePolicy) (s : Store k) (first rest : List (Request k))
    (key : ObjectKey) : accepted policy s (first ++ rest) key
      = accepted policy s first key + accepted policy (after policy s first) rest key := by
  rw [accepted, published_append, List.countP_append]
  rfl

theorem accepted_of_change (h : s.Orderly) {requests : List (Request k)} {key : ObjectKey}
    (changed : (after policy s requests).view key ≠ s.view key) :
    0 < accepted policy s requests key := by
  obtain ⟨log, remembers⟩ := h.journal
  rw [accepted, List.countP_pos_iff]
  by_contra none
  refine changed ?_
  rw [remembers.view, (remembers.after_calls policy requests).view]
  exact Event.replay_append_of_ne fun e mem same => none ⟨e, mem, decide_eq_true same⟩

def CountsTo (n : Nat) (o : Object k) : Prop := o.metadata.generation = some (.ofNat n)

theorem CountsTo.raised {n : Nat} (counts : call.Counts old o) (before : CountsTo n old) :
    CountsTo (n + if call.raises old o then 1 else 0) o := by
  refine (counts _ before).trans (congrArg some ?_)
  split
  next => exact Int64.ofNat_add n 1 |>.symm
  next => rfl

/-- How the generation of an object has come about in some calls: it goes on from what it was
before, or starts at one, and goes up by no more than there were writes. -/
inductive Grown (policy : WritePolicy) (s : Store k) (requests : List (Request k)) (place : Nat)
    (o : Object k) : Prop
  | stood {old : Object k} {more : Nat} (before : (place, old) ∈ s.objects)
    (bound : more ≤ accepted policy s requests o.key)
    (counts : ∀ n, CountsTo n old → CountsTo (n + more) o)
  | created {n : Nat} (free : s.nextPlace ≤ place) (started : 1 ≤ n)
    (bound : n ≤ accepted policy s requests o.key) (counts : CountsTo n o)

theorem raise_le_accepted (policy : WritePolicy) (requests : List (Request k)) (r : Request k)
    (before : (place, old) ∈ (after policy (.empty k) requests).objects)
    (mem : (place, o) ∈ (after policy (.empty k) (requests ++ [r])).objects) :
    (if r.call.raises old o then 1 else 0)
      ≤ accepted policy (after policy (.empty k) requests) [r] o.key := by
  have h := orderly_after policy requests
  have h' := orderly_after policy (requests ++ [r])
  have key : o.key = old.key := (goesOn_bond.after policy requests [r] before mem).key
  split
  next raises =>
    refine accepted_of_change h fun same => ?_
    have there := h.indexed.view_of_mem before
    have there' := h'.indexed.view_of_mem mem
    rw [after_append, same, key, there] at there'
    obtain rfl := Option.some.inj there'
    simp at raises
  next => exact Nat.zero_le _

/-- The induction is on the calls from their end: the last one raises the generation by one at
most, and only if it has written the object. -/
theorem grown_after (policy : WritePolicy) (requests more : List (Request k))
    (mem : (place, o) ∈ (after policy (.empty k) (requests ++ more)).objects) :
    Grown policy (after policy (.empty k) requests) more place o := by
  induction more using List.reverseRecOn generalizing o with
  | nil =>
    rw [List.append_nil] at mem
    exact .stood mem (Nat.zero_le _) fun n counts => counts
  | append_singleton more r ih =>
    rw [← List.append_assoc] at mem
    have total (key : ObjectKey) :
        accepted policy (after policy (.empty k) requests) (more ++ [r]) key
          = accepted policy (after policy (.empty k) requests) more key
            + accepted policy (after policy (.empty k) (requests ++ more)) [r] key := by
      rw [accepted_append, after_append]
    cases arises_of_perform policy (requests ++ more) r mem with
    | @stood last before counts =>
      have raise := raise_le_accepted policy (requests ++ more) r before mem
      have key : o.key = last.key :=
        (goesOn_bond.after policy (requests ++ more) [r] before mem).key
      cases ih before with
      | stood first bound grown =>
        rw [← key] at bound
        refine .stood first (total _ ▸ Nat.add_le_add bound raise) fun n since => ?_
        rw [← Nat.add_assoc]
        exact (grown n since).raised counts
      | created free started bound since =>
        rw [← key] at bound
        exact .created free (Nat.le_add_right_of_le started)
          (total _ ▸ Nat.add_le_add bound raise) (since.raised counts)
    | created free absent first =>
      have h := orderly_after policy (requests ++ more)
      have h' := orderly_after policy (requests ++ more ++ [r])
      have there := h'.indexed.view_of_mem mem
      have wrote : 0 < accepted policy (after policy (.empty k) (requests ++ more)) [r] o.key := by
        refine accepted_of_change h ?_
        rw [← after_append, there, absent]
        nofun
      have leads := after_leads (orderly_after policy requests) policy more
      rw [← after_append] at leads
      exact .created (free ▸ nextPlace_le (orderly_after policy requests) leads) (Nat.le_refl 1)
        (total _ ▸ Nat.le_add_left_of_le wrote) first

/-! ## What callers submit -/

def withGeneration (generation : Option Int64) (o : Object k) : Object k :=
  o.mapMeta fun m => { m with generation }

/-- Calls that differ at most in the generation that they submit. For patches that is the generation
of what they make of the objects that are stored. -/
inductive Resubmits (s : Store k) : Call k → Call k → Prop
  | create (o : Object k) (options : WriteOptions) (generation : Option Int64) :
    Resubmits s (.create o options) (.create (withGeneration generation o) options)
  | update (side : WriteSide) (o : Object k) (options : WriteOptions)
    (generation : Option Int64) :
    Resubmits s (.update side o options) (.update side (withGeneration generation o) options)
  | patch {name : String} {document document' : PatchRequest} {options : WriteOptions}
    (side : document'.side = document.side)
    (same : ∀ o ∈ s.toList, (patched document' o).map (withGeneration none)
      = (patched document o).map (withGeneration none)) :
    Resubmits s (.patch name document options) (.patch name document' options)

variable {new : Object k} {side : WriteSide} {dryRun : Bool}

theorem named_generation (m : ObjectMeta) (suffix : String) (generation : Option Int64) :
    ({ m with generation } : ObjectMeta).named suffix = { m.named suffix with generation } := by
  have same : ({ m with generation } : ObjectMeta).nameText = m.nameText := rfl
  unfold ObjectMeta.named
  rw [same]
  by_cases named : m.nameText.isEmpty = true
  · simp only [if_pos named]
    split
    next base _ => by_cases empty : base.isEmpty = true <;> simp only [empty] <;> rfl
    next => rfl
  · simp only [if_neg named]

theorem newcomer_withGeneration (suffix : String) (generation : Option Int64) :
    newcomer suffix (withGeneration generation new) = newcomer suffix new := by
  have named := named_generation new.metadata suffix generation
  unfold newcomer withGeneration Object.mapMeta
  dsimp only
  rw [named]
  rfl

theorem create_withGeneration (generation : Option Int64) :
    create ambient dryRun (withGeneration generation new) s = create ambient dryRun new s := by
  simp only [create, planCreate, newcomer_withGeneration]

theorem planUpdate_withGeneration (name : String) (generation : Option Int64) :
    planUpdate policy side name (withGeneration generation new) old
      = planUpdate policy side name new old := by
  cases side <;> rfl

theorem updateAt_withGeneration (name : String) (generation : Option Int64) :
    updateAt policy ambient side ns name dryRun (withGeneration generation new) s
      = updateAt policy ambient side ns name dryRun new s := by
  simp only [updateAt, create_withGeneration, planUpdate_withGeneration]

theorem patchAt_of_same {name : String} {document document' : PatchRequest} (h : s.Indexed)
    (same : ∀ o ∈ s.toList, (patched document' o).map (withGeneration none)
      = (patched document o).map (withGeneration none)) :
    patchAt policy ambient side ns name document' dryRun s
      = patchAt policy ambient side ns name document dryRun s := by
  unfold patchAt
  cases found : s.get ns name with
  | error error => rfl
  | ok current =>
    obtain ⟨⟨place, mem⟩, -⟩ := h.view_eq_some_iff.1 (Store.get_eq_ok.1 found)
    have same := same current (List.mem_map_of_mem mem)
    have whole (o : Object k) : updateAt policy ambient side ns name dryRun o s
        = updateAt policy ambient side ns name dryRun (withGeneration none o) s :=
      (updateAt_withGeneration name none).symm
    dsimp only
    generalize patched document current = made at same ⊢
    generalize patched document' current = made' at same ⊢
    cases made with
    | error error =>
      cases made' with
      | error error' =>
        cases same
        rfl
      | ok new' => cases same
    | ok new =>
      cases made' with
      | error error' => cases same
      | ok new' =>
        dsimp only
        rw [whole new', whole new, show withGeneration none new' = _ from Except.ok.inj same]

theorem perform_resubmitted {call call' : Call k} (h : s.Indexed)
    (resubmits : Resubmits s call call') (policy : WritePolicy) (ambient : Ambient)
    (ns : Option String) :
    perform policy ambient ns call' s = perform policy ambient ns call s := by
  cases resubmits with
  | create o options generation => simp only [perform, create_withGeneration]
  | update side o options generation =>
    have address : (withGeneration generation o).metadata.ns = o.metadata.ns
      ∧ (withGeneration generation o).anyName = o.anyName := ⟨rfl, rfl⟩
    simp only [perform, update, address, updateAt_withGeneration]
  | patch sided same => simp only [perform, patch, sided, patchAt_of_same h same]

/-- The generation of an object is one at its creation. A call raises it by one if it declares
something else of the object, or is the deletion that begins the deletion of the object, and leaves
it alone otherwise. What a caller submits as the generation makes no difference. So from one moment
of a run to another it does not go down, and it is never more than the writes of the object that
were accepted, as long as there are not more of these than it can count in 64 bits. -/
theorem generation_counts_changes (policy : WritePolicy) (requests : List (Request k)) :
    let s := after policy (.empty k) requests
    (∀ r place o, s.nextPlace ≤ place → (place, o) ∈ (after policy s [r]).objects →
      o.metadata.generation = some 1)
    ∧ (∀ r place old o, (place, old) ∈ s.objects → (place, o) ∈ (after policy s [r]).objects →
      ∃ g, old.metadata.generation = some g
        ∧ o.metadata.generation = some (if r.call.raises old o then g + 1 else g))
    ∧ (∀ more place o o', (place, o) ∈ s.objects → (place, o') ∈ (after policy s more).objects →
      let writes := accepted policy (.empty k) (requests ++ more) o.key
      ∃ m n, CountsTo m o ∧ CountsTo n o' ∧ 1 ≤ m ∧ m ≤ n ∧ n ≤ writes
        ∧ (writes ≤ Int64.maxValue.toInt →
          (Int64.ofNat m).toInt = m ∧ (Int64.ofNat n).toInt = n))
    ∧ ∀ call call' ambient ns, Resubmits s call call' →
      perform policy ambient ns call' s = perform policy ambient ns call s := by
  intro s
  have h : s.Orderly := orderly_after policy requests
  have started {place : Nat} {o : Object k} (stored : (place, o) ∈ s.objects) :
      ∃ n, 1 ≤ n ∧ n ≤ accepted policy (.empty k) requests o.key ∧ CountsTo n o := by
    cases grown_after policy [] requests stored with
    | stood before => cases before
    | created _ started bound counts => exact ⟨_, started, bound, counts⟩
  refine ⟨fun r place o free mem => ?_, fun r place old o before mem => ?_,
    fun more place o o' before later => ?_, fun call call' ambient ns resubmits =>
    perform_resubmitted h.indexed resubmits policy ambient ns⟩
  · rw [← after_append] at mem
    cases arises_of_perform policy requests r mem with
    | stood before => exact absurd (h.indexed.below _ _ before) (Nat.not_lt.2 free)
    | created _ _ first => exact first
  · rw [← after_append] at mem
    obtain ⟨n, -, -, since⟩ := started before
    refine ⟨_, since, ?_⟩
    cases arises_of_perform policy requests r mem with
    | stood before' counts =>
      obtain rfl := h.indexed.object_unique before' before
      exact counts _ since
    | created free => exact absurd (h.indexed.below _ _ before) (Nat.not_lt.2 free.ge)
  · intro writes
    rw [← after_append] at later
    obtain ⟨m, positive, bound, since⟩ := started before
    have key : o'.key = o.key := (goesOn_bond.after policy requests more before later).key
    have whole : writes = _ := accepted_append policy (.empty k) requests more o.key
    cases grown_after policy requests more later with
    | created free => exact absurd (h.indexed.below _ _ before) (Nat.not_lt.2 free)
    | @stood old up before' bound' counts =>
      obtain rfl := h.indexed.object_unique before' before
      rw [key] at bound'
      have most : m + up ≤ writes := whole ▸ Nat.add_le_add bound bound'
      refine ⟨m, m + up, since, counts m since, positive, Nat.le_add_right .., most,
        fun small => ?_⟩
      rw [Int64.toInt_maxValue] at small
      exact ⟨Int64.toInt_ofNat_of_lt (by omega), Int64.toInt_ofNat_of_lt (by omega)⟩

/-- A cluster that is created and then declared anew, each time with a generation of its own, and
that waits after it has been deleted twice. -/
theorem generation_counts_changes_submitted :
    let given (generation : Int64) (provider : String) : Object .cluster :=
      { metadata := { name := some "a", generation, finalizers := some ["example.com/hold"] }
        spec := { cloudProvider := some { name := provider } }
        status := none }
    let creation := .plain (.create (given 7 "one") {})
    let change := .plain (.update .main (given 9 "two") {})
    let document (generation : Int) : PatchRequest :=
      ⟨.merge, .obj [("metadata", .obj [("generation", .int generation)])], none⟩
    let s := after {} (.empty .cluster) [creation]
    let s' := after {} s [change, .plain (.delete "a" {}), .plain (.delete "a" {})]
    ∃ o changed o', s.objects = [(0, o)] ∧ (after {} s [change]).objects = [(0, changed)]
      ∧ s'.objects = [(0, o')] ∧ o.metadata.generation = some 1
      ∧ changed.metadata.generation = some 2
      ∧ (∃ m n, CountsTo m o ∧ CountsTo n o' ∧ 1 ≤ m ∧ m ≤ n ∧ n ≤ 3)
      ∧ perform {} .plain none (.patch "a" (document 5) {}) s
        = perform {} .plain none (.patch "a" (document 6) {}) s := by
  intro given creation change document s s'
  have created : s.objects.map (fun e => (e.1, e.2.spec, e.2.key))
      = [(0, (given 7 "one").spec, ⟨"", "a"⟩)] := by decide +kernel
  have changed : (after {} s [change]).objects.map (fun e => (e.1, e.2.spec))
      = [(0, (given 9 "two").spec)] := by decide +kernel
  have left : s'.objects.map (·.1) = [0] := by decide +kernel
  have writes : accepted {} (.empty .cluster)
      ([creation] ++ [change, .plain (.delete "a" {}), .plain (.delete "a" {})]) ⟨"", "a"⟩ = 3 := by
    decide +kernel
  have agree : ∀ o ∈ s.toList, (patched (document 6) o).toOption.isSome = true
      ∧ (patched (document 5) o).toOption.map (withGeneration none)
        = (patched (document 6) o).toOption.map (withGeneration none) := by decide +kernel
  have same : ∀ o ∈ s.toList, (patched (document 5) o).map (withGeneration none)
      = (patched (document 6) o).map (withGeneration none) := by
    intro o stored
    obtain ⟨made, same⟩ := agree o stored
    generalize patched (document 5) o = left at same ⊢
    generalize patched (document 6) o = right at made same ⊢
    cases left <;> cases right <;> simp_all [Except.toOption, Except.map]
  obtain ⟨⟨_, o⟩, stored, parts⟩ := List.map_eq_singleton_iff.1 created
  obtain ⟨⟨_, declared⟩, stored', parts'⟩ := List.map_eq_singleton_iff.1 changed
  obtain ⟨⟨_, o'⟩, stored'', rfl⟩ := List.map_eq_singleton_iff.1 left
  simp only [Prod.mk.injEq] at parts parts'
  obtain ⟨rfl, spec, key⟩ := parts
  obtain ⟨rfl, spec'⟩ := parts'
  have mem : (0, o) ∈ s.objects := stored ▸ List.mem_singleton_self _
  obtain ⟨starts, -⟩ := generation_counts_changes (k := .cluster) {} []
  obtain ⟨-, counts, bounds, unread⟩ := generation_counts_changes {} [creation]
  have first := starts creation 0 o (Nat.le_refl 0) mem
  obtain ⟨g, generation, raised⟩ := counts change 0 o declared mem
    (stored' ▸ List.mem_singleton_self _)
  obtain ⟨m, n, since, until', positive, le, bound, -⟩ := bounds
    [change, .plain (.delete "a" {}), .plain (.delete "a" {})] 0 o o' mem
    (stored'' ▸ List.mem_singleton_self _)
  refine ⟨o, declared, o', stored, stored', stored'', first, ?_,
    ⟨m, n, since, until', positive, le, writes ▸ key ▸ bound⟩, unread _ _ _ _ (.patch rfl same)⟩
  rw [first] at generation
  obtain rfl := Option.some.inj generation
  have raises : change.call.raises o declared = true := by
    have declares : (change.call.declares
        && decide ((given 9 "two").spec ≠ (given 7 "one").spec)) = true := by decide +kernel
    rw [Call.raises, spec, spec', declares, Bool.true_or]
  rw [raised, raises]
  rfl

end Registry

end FleetRegistry
