import FleetRegistry.Proofs.StandIn.Settings
import Mathlib.Data.List.Forall2

/-!
Calls to the stand-in that are written down and intercepted. Each call leaves one record, whatever
comes of it. Then the newest reactor that has something to say decides, except that to a watch it
can only say that it fails. A call on which nobody decides goes to the store, as if there were no
reactors.
-/
namespace FleetRegistry

/-! ## Records -/

/-- What is written down of a call: its verb, the part of an object that it is about, and the name
of that object. -/
inductive Call.Recorded {k : Kind} : Call k → Verb → Option String → Option String → Prop
  | get (name : String) : Recorded (.get name) .get none (some name)
  | list (options : ListOptions) : Recorded (.list options) .list none none
  | watch (options : WatchOptions) : Recorded (.watch options) .watch none none
  | create (o : Object k) (options : WriteOptions) :
    Recorded (.create o options) .create none (some o.anyName)
  | update (o : Object k) (options : WriteOptions) :
    Recorded (.update .main o options) .update none (some o.anyName)
  | updateStatus (o : Object k) (options : WriteOptions) :
    Recorded (.update .status o options) .update (some "status") (some o.anyName)
  | patch (name : String) (document : PatchRequest) (options : WriteOptions) :
    Recorded (.patch name document options) .patch document.subresource (some name)
  | delete (name : String) (options : DeleteOptions) :
    Recorded (.delete name options) .delete none (some name)
  | deleteCollection (selection : ListOptions) (options : DeleteOptions) :
    Recorded (.deleteCollection selection options) .deleteCollection none none

/-! ## Reactors -/

namespace Reactor

variable {reactors : List Reactor} {action : Action} {reaction : Outcome Json}

/-- A reactor is asked about the actions with its verb and about its collection; one without a verb is
asked whatever the verb is, and a star stands for all collections. -/
theorem handles_iff {r : Reactor} : r.handles action = true
    ↔ (r.verb = none ∨ r.verb = some action.verb)
      ∧ (r.resource = "*" ∨ r.resource = action.resource) := by
  simp [handles, Action.isAbout]

/-- What a reactor is for: a verb or all of them, and a collection or all of them. -/
def scope (r : Reactor) : Option Verb × String := (r.verb, r.resource)

/-- Whether a reactor has nothing to say to an action, even if it is about such actions. -/
def Declines (r : Reactor) (action : Action) : Prop :=
  r.handles action = true → r.react action = none

/-- The first of some reactors that does not decline an action says this to it. -/
inductive Decide (action : Action) (reaction : Outcome Json) : List Reactor → Prop
  | first {before after : List Reactor} {r : Reactor} (declined : ∀ q ∈ before, q.Declines action)
    (handles : r.handles action = true) (reacts : r.react action = some reaction) :
    Decide action reaction (before ++ r :: after)

theorem firstReaction?_eq_none_iff :
    firstReaction? reactors action = none ↔ ∀ r ∈ reactors, r.Declines action := by
  simp [firstReaction?, Declines]

theorem firstReaction?_of_decide (decide : Decide action reaction reactors) :
    firstReaction? reactors action = some reaction := by
  cases decide with
  | @first before after r declined handles reacts =>
    have passed : firstReaction? before action = none := firstReaction?_eq_none_iff.2 declined
    unfold firstReaction? at passed ⊢
    rw [List.filter_append, List.findSome?_append, passed, Option.none_or,
      List.filter_cons, if_pos handles, List.findSome?_cons, reacts]

theorem exists_decide {r : Reactor} (mem : r ∈ reactors) (speaks : ¬ r.Declines action) :
    ∃ reaction, Decide action reaction reactors := by
  induction reactors with
  | nil => cases mem
  | cons head rest ih =>
    by_cases declines : head.Declines action
    · have later : r ∈ rest := (List.mem_cons.1 mem).resolve_left fun same =>
        speaks (same ▸ declines)
      obtain ⟨reaction, declined, handles, reacts⟩ := ih later
      exact ⟨reaction, .first (List.forall_mem_cons.2 ⟨declines, declined⟩) handles reacts⟩
    · obtain ⟨handles, said⟩ := Classical.not_imp.1 declines
      obtain ⟨reaction, reacts⟩ := Option.ne_none_iff_exists'.1 said
      have nobody : ∀ q ∈ [], Reactor.Declines q action := List.forall_mem_nil _
      exact ⟨reaction, .first nobody handles reacts⟩

end Reactor

/-! ## Values of reactors -/

variable {k : Kind}

def Call.givesObject : Call k → Bool
  | .get _ | .create .. | .update .. | .patch .. => true
  | .list _ | .watch _ | .delete .. | .deleteCollection .. => false

/-- What a value comes to as the answer to a call. Where the answer has objects in it, they are read
from the value; where it has none, the value does not matter. -/
inductive Call.Canned (value : Json) : Call k → Outcome (Answer k (Watch k)) → Prop
  | object {call : Call k} {o : Object k} (one : call.givesObject = true)
    (read : Object.ofJson? k value = some o) : Canned value call (.ok (.object o))
  | noObject {call : Call k} (one : call.givesObject = true)
    (unread : Object.ofJson? k value = none) : Canned value call (.error .serialization)
  | page (options : ListOptions) {items : List (Object k)}
    (read : Json.list? (Object.ofJson? k) value = some items) :
    Canned value (.list options) (.ok (.page { items }))
  | noPage (options : ListOptions) (unread : Json.list? (Object.ofJson? k) value = none) :
    Canned value (.list options) (.error .serialization)
  | deleted (name : String) (options : DeleteOptions) :
    Canned value (.delete name options) (.ok (.deletion .deleted))
  | emptied (selection : ListOptions) (options : DeleteOptions) :
    Canned value (.deleteCollection selection options) (.ok .done)

namespace StandIn

theorem objectOf_canned {call : Call k} (one : call.givesObject = true) (value : Json) :
    call.Canned value (objectOf k value) := by
  unfold objectOf
  split
  next o read => exact .object one read
  next unread => exact .noObject one unread

theorem pageOf_canned (options : ListOptions) (value : Json) :
    Call.Canned (k := k) value (.list options) (pageOf k value) := by
  unfold pageOf
  split
  next items read => exact .page options read
  next unread => exact .noPage options unread

theorem answerOf?_ok (call : Call k) (value : Json) :
    (∃ options, call = .watch options) ∧ answerOf? call (.ok value) = none
      ∨ (∀ options, call ≠ .watch options)
        ∧ ∃ outcome, answerOf? call (.ok value) = some outcome ∧ call.Canned value outcome := by
  cases call with
  | watch options => exact .inl ⟨⟨options, rfl⟩, rfl⟩
  | list options => exact .inr ⟨nofun, _, rfl, pageOf_canned options value⟩
  | get | create | update | patch => exact .inr ⟨nofun, _, rfl, objectOf_canned rfl value⟩
  | delete name options => exact .inr ⟨nofun, _, rfl, .deleted name options⟩
  | deleteCollection selection options => exact .inr ⟨nofun, _, rfl, .emptied selection options⟩

/-! ## Calls -/

abbrev AnyCall := (k : Kind) × ClientCall k

namespace AnyCall

def action (c : AnyCall) : Action := Action.ofCall (boundTo c.1 c.2.ns) c.2.call

structure Records (c : AnyCall) (action : Action) : Prop where
  call : c.2.call.Recorded action.verb action.subresource action.name
  resource : action.resource = c.1.plural
  ns : action.ns = boundTo c.1 c.2.ns

theorem records_action (c : AnyCall) : c.Records c.action := by
  obtain ⟨k, ambient, ns, call⟩ := c
  refine ⟨?_, ?_, ?_⟩
  · cases call with
    | update side o options => cases side <;> constructor
    | _ => constructor
  · cases call <;> rfl
  · cases call <;> rfl

def made (c : AnyCall) (s : StandIn) : Outcome (Answer c.1 (Watch c.1)) × StandIn :=
  s.serve c.2.ambient c.2.ns c.2.call

/-- What a call would come to without reactors, which stay. -/
def unheard (c : AnyCall) (s : StandIn) : Outcome (Answer c.1 (Watch c.1)) × StandIn :=
  let (outcome, s') := c.made { s with reactors := [] }
  (outcome, { s' with reactors := s.reactors })

/-- The stand-in with one more record, and else as it was. -/
def noted (c : AnyCall) (s : StandIn) : StandIn := { s with actions := s.actions ++ [c.action] }

variable (c : AnyCall) {s : StandIn}

theorem made_of_answered {outcome : Outcome (Answer c.1 (Watch c.1))}
    (answered : (Reactor.firstReaction? s.reactors c.action).bind (answerOf? c.2.call)
      = some outcome) : c.made s = (outcome, c.noted s) := by
  unfold made serve
  dsimp only
  rw [show Action.ofCall (boundTo c.1 c.2.ns) c.2.call = c.action from rfl, answered]
  rfl

theorem made_of_unanswered
    (unanswered : (Reactor.firstReaction? s.reactors c.action).bind (answerOf? c.2.call)
      = none) : c.made s = c.unheard s := by
  unfold unheard made serve
  dsimp only
  rw [show Action.ofCall (boundTo c.1 c.2.ns) c.2.call = c.action from rfl, unanswered]
  obtain ⟨k, ambient, ns, call⟩ := c
  cases k <;> rfl

theorem actions_made : (c.made s).2.actions = s.actions ++ [c.action] := by
  unfold made serve
  dsimp only
  split
  next => rfl
  next =>
    obtain ⟨k, ambient, ns, call⟩ := c
    cases k <;> rfl

/-- How a call is answered: by the first reactor that does not decline it, except that only an
error can be said to a watch; by the store, if there is no such reactor. -/
structure Answered (c : AnyCall) (s : StandIn) : Prop where
  decided : ∀ r ∈ s.reactors, ¬ r.Declines c.action →
    ∃ reaction, Reactor.Decide c.action reaction s.reactors
  refused : ∀ error, Reactor.Decide c.action (.error error) s.reactors →
    c.made s = (.error error, c.noted s)
  given : ∀ value, Reactor.Decide c.action (.ok value) s.reactors →
    (∀ options, c.2.call ≠ .watch options) →
    c.2.call.Canned value (c.made s).1 ∧ (c.made s).2 = c.noted s
  watched : ∀ value, Reactor.Decide c.action (.ok value) s.reactors →
    ∀ options, c.2.call = .watch options → c.made s = c.unheard s
  declined : (∀ r ∈ s.reactors, r.Declines c.action) → c.made s = c.unheard s

theorem answered (s : StandIn) : c.Answered s where
  decided _ mem speaks := Reactor.exists_decide mem speaks
  refused error decide :=
    c.made_of_answered (by rw [Reactor.firstReaction?_of_decide decide]; rfl)
  given value decide other := by
    obtain ⟨⟨options, watch⟩, -⟩ | ⟨-, outcome, eq, canned⟩ := answerOf?_ok c.2.call value
    · exact absurd watch (other options)
    · have said : c.made s = (outcome, c.noted s) :=
        c.made_of_answered (by rw [Reactor.firstReaction?_of_decide decide]; exact eq)
      rw [said]
      exact ⟨canned, rfl⟩
  watched value decide options watch := by
    obtain ⟨-, eq⟩ | ⟨other, -⟩ := answerOf?_ok c.2.call value
    · exact c.made_of_unanswered (by rw [Reactor.firstReaction?_of_decide decide]; exact eq)
    · exact absurd watch (other options)
  declined all :=
    c.made_of_unanswered (by rw [Reactor.firstReaction?_eq_none_iff.2 all]; rfl)

end AnyCall

/-! ## Runs -/

/-- What is done with a stand-in. -/
inductive Use where
  | call (c : AnyCall)
  | prepend (reactor : Reactor)
  /-- Reactors may remember what they have seen: they react otherwise from here on. -/
  | turn (react : Reactor → Action → Option (Outcome Json))
  /-- Objects are put into a store, up to the first that is refused. -/
  | seed (k : Kind) (objects : List (Ambient × Object k))

def Use.called? : Use → Option AnyCall
  | call c => some c
  | prepend _ | turn _ | seed .. => none

def Use.prepended? : Use → Option Reactor
  | prepend reactor => some reactor
  | call _ | turn _ | seed .. => none

/-- A store after objects were put into it. Whoever shares it keeps those that came before one that
was refused. -/
def seeded {k : Kind} : List (Ambient × Object k) → Store k → Store k
  | [], store => store
  | (ambient, o) :: rest, store =>
    match store.create ambient o with
    | (.error _, store) => store
    | (.ok _, store) => seeded rest store

theorem seeded_of_seed {k : Kind} {objects : List (Ambient × Object k)} {store store' : Store k}
    (all : seed objects store = .ok store') : seeded objects store = store' := by
  induction objects generalizing store with
  | nil => exact Except.ok.inj all
  | cons first rest ih =>
    obtain ⟨ambient, o⟩ := first
    rw [seed] at all
    rw [seeded]
    generalize store.create ambient o = created at all
    obtain ⟨outcome, next⟩ := created
    cases outcome with
    | error error => cases all
    | ok entered => exact ih all

def use (s : StandIn) : Use → StandIn
  | .call c => (c.made s).2
  | .prepend reactor => s.prependReactor reactor
  | .turn react => { s with reactors := s.reactors.map fun r => { r with react := react r } }
  | .seed k objects => s.withStore k (seeded objects (s.store k))

def afterUses (s : StandIn) (uses : List Use) : StandIn := uses.foldl use s

variable {s : StandIn}

theorem actions_use (u : Use) :
    (s.use u).actions = s.actions ++ (u.called?.map AnyCall.action).toList := by
  cases u with
  | call c => exact c.actions_made
  | prepend reactor => exact (List.append_nil _).symm
  | turn react => exact (List.append_nil _).symm
  | seed k objects =>
    rw [Use.called?, Option.map_none, Option.toList_none, List.append_nil, use]
    cases k <;> rfl

theorem actions_afterUses (uses : List Use) :
    (s.afterUses uses).actions
      = s.actions ++ (uses.filterMap Use.called?).map AnyCall.action := by
  induction uses generalizing s with
  | nil => exact (List.append_nil _).symm
  | cons u rest ih =>
    rw [afterUses, List.foldl_cons, ← afterUses, ih, actions_use, List.append_assoc,
      List.filterMap_cons]
    cases u.called? <;> rfl

theorem scopes_use (u : Use) :
    (s.use u).reactors.map (·.scope)
      = (u.prepended?.map (·.scope)).toList ++ s.reactors.map (·.scope) := by
  cases u with
  | call c => exact congrArg (List.map (·.scope)) (serve_reactors ..)
  | prepend reactor => rfl
  | turn react => simp [use, Use.prepended?, Reactor.scope]
  | seed k objects =>
    rw [Use.prepended?, Option.map_none, Option.toList_none, List.nil_append, use]
    cases k <;> rfl

theorem scopes_afterUses (uses : List Use) :
    (s.afterUses uses).reactors.map (·.scope)
      = ((uses.filterMap Use.prepended?).map (·.scope)).reverse ++ s.reactors.map (·.scope) := by
  induction uses generalizing s with
  | nil => rfl
  | cons u rest ih =>
    rw [afterUses, List.foldl_cons, ← afterUses, ih, scopes_use, List.filterMap_cons]
    cases u.prepended? <;> simp

/-- Whatever is stored at first, and whatever is done with a stand-in: its records are those of the
calls, one for each and in their order; its reactors are those that were registered, the newest
first; and so goes the next call, whose record comes last. -/
theorem recorded_and_intercepted (config : ClientConfig) (clusters : Store .cluster)
    (records : Store .dnsRecord) (uses : List Use) (c : AnyCall) :
    let s := afterUses { config, clusters, records } uses
    List.Forall₂ AnyCall.Records (uses.filterMap Use.called?) s.actions
      ∧ s.reactors.map (·.scope) = ((uses.filterMap Use.prepended?).map (·.scope)).reverse
      ∧ c.Records c.action ∧ (c.made s).2.actions = s.actions ++ [c.action]
      ∧ c.Answered s := by
  intro s
  have actions : s.actions = (uses.filterMap Use.called?).map AnyCall.action :=
    actions_afterUses uses
  have scopes := scopes_afterUses (s := { config, clusters, records }) uses
  rw [List.map_nil, List.append_nil] at scopes
  refine ⟨?_, scopes, c.records_action, c.actions_made, c.answered s⟩
  rw [actions, List.forall₂_map_right_iff, List.forall₂_same]
  exact fun c _ => c.records_action

/-- A creation that is refused is written down too, and a reactor that declines changes nothing. -/
example :
    let refuse : Reactor :=
      ⟨some .create, "clusters", fun a => some (.error (.notFound a.resource ""))⟩
    let pass : Reactor := ⟨none, "*", fun _ => none⟩
    let s := afterUses {} [.call (creationOf "a" false), .prepend refuse, .prepend pass,
      .call (creationOf "b" false), .call ⟨.cluster, .plain, "", .get "a"⟩]
    s.actions.map (fun a => (a.verb, a.name))
        = [(.create, some "a"), (.create, some "b"), (.get, some "a")]
      ∧ s.clusters.toList.map (·.anyName) = ["a"] := by
  decide +kernel

end StandIn

end FleetRegistry
