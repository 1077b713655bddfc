import FleetRegistry.Proofs.Metrics.Families
import FleetRegistry.Proofs.Registry.Effects
import FleetRegistry.Proofs.Registry.Reasons
import Mathlib.Data.List.Count
import Mathlib.Data.List.Perm.Basic
import Mathlib.Data.Prod.Basic

/-!
What the counts say. Any number of registries of both kinds share their counts. Whatever they are
asked, every call is counted and timed once under its verb, a rejected object is counted as such,
and the watches that are counted are those that callers still hold.
-/
namespace FleetRegistry

theorem Kind.name_injective : Function.Injective Kind.name := by
  intro a b same
  cases a <;> cases b <;> first | rfl | exact absurd same (by decide)

/-! ## Operations -/

/-- What a call asks for, told apart as far as calls are counted apart. -/
inductive Operation where
  | create
  | get
  | list
  | watch
  | update
  | updateStatus
  | patch
  | delete
  | deleteCollection
  deriving DecidableEq

def Operation.label : Operation → String
  | create => "create"
  | get => "get"
  | list => "list"
  | watch => "watch"
  | update => "update"
  | updateStatus => "update_status"
  | patch => "patch"
  | delete => "delete"
  | deleteCollection => "delete_collection"

theorem Operation.label_injective : Function.Injective Operation.label := by
  intro a b same
  cases a <;> cases b <;> first | rfl | exact absurd same (by decide)

def Call.asks {k : Kind} : Call k → Operation
  | .get _ => .get
  | .list _ => .list
  | .watch _ => .watch
  | .create .. => .create
  | .update .main .. => .update
  | .update .status .. => .updateStatus
  | .patch .. => .patch
  | .delete .. => .delete
  | .deleteCollection .. => .deleteCollection

theorem Call.verb_eq {k : Kind} (call : Call k) : call.verb = call.asks.label := by
  unfold verb
  split <;> rfl

/-! ## Counts -/

namespace Metrics

variable {m : Metrics} {kind verb : String} {error : Option RegistryError} {micros : Nat}

theorem requests_recordResult : (m.recordResult kind verb error micros).requests
    = m.requests.update [kind, outcomeOf error, verb] 0 (· + 1) := by
  unfold recordResult
  split <;> rfl

theorem durations_recordResult : (m.recordResult kind verb error micros).durations
    = m.durations.update [kind, verb] .none (·.add micros) := by
  unfold recordResult
  split <;> rfl

theorem failures_recordResult : (m.recordResult kind verb error micros).failures
    = if error.any (·.isInvalid) then m.failures.update [kind, verb] 0 (· + 1)
      else m.failures := by
  unfold recordResult
  split <;> rfl

theorem watches_recordResult : (m.recordResult kind verb error micros).watches = m.watches := by
  unfold recordResult
  split <;> rfl

theorem outcomeOf_eq_invalid_iff (own : ∀ e, error = some e → e.isOwn = true) :
    outcomeOf error = "Invalid" ↔ error.any (·.isInvalid) = true := by
  cases error with
  | none => simp [outcomeOf]
  | some e => exact RegistryError.reason_eq_invalid_iff (own e rfl)

/-- The label values of all requests of one kind and verb, whatever their outcome. -/
def ofVerb (kind verb : String) : List String → Bool
  | [kind', _, verb'] => (kind', verb') = (kind, verb)
  | _ => false

/-- How many requests of one kind and verb there were, over all outcomes. -/
def requestsOf (kind verb : String) (m : Metrics) : Nat := m.requests.total (ofVerb kind verb)

def timed (kind verb : String) (m : Metrics) : Nat :=
  ((m.durations.sample? [kind, verb]).getD .none).count

def watching (kind : String) (m : Metrics) : Int := (m.watches.sample? [kind]).getD 0

/-- The counts after some calls, each of a kind and with a verb, while some watches are open. -/
structure Accounts (m : Metrics) (calls : List (String × String)) (streams : List String) :
    Prop where
  requestsAscend : m.requests.Ascending
  durationsAscend : m.durations.Ascending
  failuresAscend : m.failures.Ascending
  watchesAscend : m.watches.Ascending
  requests : ∀ kind verb, m.requestsOf kind verb = calls.count (kind, verb)
  durations : ∀ kind verb, m.timed kind verb = calls.count (kind, verb)
  failures : ∀ kind verb,
    m.failures.sample? [kind, verb] = m.requests.sample? [kind, "Invalid", verb]
  watches : ∀ kind, m.watching kind = streams.count kind

namespace Accounts

variable {calls : List (String × String)} {streams : List String}

theorem empty : Accounts {} [] [] where
  requestsAscend := .nil
  durationsAscend := .nil
  failuresAscend := .nil
  watchesAscend := .nil
  requests _ _ := rfl
  durations _ _ := rfl
  failures _ _ := rfl
  watches _ := rfl

theorem recordResult (h : m.Accounts calls streams) (kind verb : String) (micros : Nat)
    (own : ∀ e, error = some e → e.isOwn = true) :
    (m.recordResult kind verb error micros).Accounts ((kind, verb) :: calls) streams where
  requestsAscend := requests_recordResult ▸ h.requestsAscend.update
  durationsAscend := durations_recordResult ▸ h.durationsAscend.update
  failuresAscend := by
    rw [failures_recordResult]
    split
    · exact h.failuresAscend.update
    · exact h.failuresAscend
  watchesAscend := by
    rw [watches_recordResult]
    exact h.watchesAscend
  requests kind' verb' := by
    have before := h.requests kind' verb'
    unfold requestsOf at before ⊢
    rw [requests_recordResult, Family.total_update, before, List.count_cons]
    simp [ofVerb]
  durations kind' verb' := by
    have before := h.durations kind' verb'
    unfold timed at before ⊢
    rw [durations_recordResult, Family.getD_sample?_update h.durationsAscend, List.count_cons,
      ← before]
    simp only [List.cons.injEq, and_true, beq_iff_eq, Prod.mk.injEq]
    split <;> rfl
  failures kind' verb' := by
    have before := h.failures kind' verb'
    have invalid := outcomeOf_eq_invalid_iff own
    rw [failures_recordResult, requests_recordResult]
    by_cases same : error.any (·.isInvalid) = true ∧ (kind, verb) = (kind', verb')
    · obtain ⟨rejected, same⟩ := same
      cases same
      rw [if_pos rejected, invalid.2 rejected, Family.sample?_update_self h.failuresAscend,
        Family.sample?_update_self h.requestsAscend, before]
    · rw [Family.sample?_update_of_ne (by grind), ← before]
      split
      next rejected => exact Family.sample?_update_of_ne (by grind)
      next => rfl
  watches := by
    simpa only [watching, watches_recordResult] using h.watches

theorem watchStarted (h : m.Accounts calls streams) :
    (m.watchStarted kind).Accounts calls (kind :: streams) :=
  { h with
    watchesAscend := h.watchesAscend.update
    watches := fun kind' => by
      have before := h.watches kind'
      unfold watching Metrics.watchStarted at *
      rw [Family.getD_sample?_update h.watchesAscend, before]
      by_cases same : kind = kind' <;> simp [same] }

theorem perm {streams' : List String} (h : m.Accounts calls streams)
    (perm : streams.Perm streams') : m.Accounts calls streams' :=
  { h with watches := fun kind => by rw [h.watches, perm.count_eq] }

theorem watchStopped (h : m.Accounts calls (kind :: streams)) :
    (m.watchStopped kind).Accounts calls streams :=
  { h with
    watchesAscend := h.watchesAscend.update
    watches := fun kind' => by
      have before := h.watches kind'
      unfold watching Metrics.watchStopped at *
      rw [Family.getD_sample?_update h.watchesAscend, before]
      by_cases same : kind = kind' <;> simp [same] }

end Accounts

end Metrics

/-- A call is counted once, and a watch that it opens is counted as open. -/
theorem Registry.serve_accounts {k : Kind} {r : Registry k} {calls : List (String × String)}
    {streams : List String} (h : r.metrics.Accounts calls streams) (ambient : Ambient)
    (ns : Option String) (call : Call k) :
    (r.serve ambient ns call).2.metrics.Accounts ((k.name, call.verb) :: calls)
      (if opensWatch (r.serve ambient ns call).1 then k.name :: streams else streams) := by
  have own : (perform r.policy ambient ns call r.store).1.Own := perform_own call
  unfold serve
  generalize perform r.policy ambient ns call r.store = result at own
  obtain ⟨outcome, store⟩ := result
  have ownError : ∀ e, error? outcome = some e → e.isOwn = true := by
    intro e failed
    cases outcome with
    | ok => cases failed
    | error e' => exact Option.some.inj failed ▸ own e' rfl
  have counted := h.recordResult k.name call.verb ambient.elapsed ownError
  cases opens : opensWatch outcome with
  | true => simpa [opens] using counted.watchStarted
  | false => simpa [opens] using counted

/-! ## Registries that share their counts -/

/-- A watch that a caller holds, and the registry that it was opened at. -/
structure HeldWatch where
  kind : Kind
  number : Nat
  watch : Watch kind

def HeldWatch.ofOutcome? (k : Kind) (number : Nat) :
    Outcome (Answer k (Watch k)) → Option HeldWatch
  | .ok (.stream watch) => some ⟨k, number, watch⟩
  | _ => none

/-- Any number of registries of each kind in one process, and the watches that callers hold. -/
structure Service where
  policies : Kind → Nat → WritePolicy
  stores : (k : Kind) → Nat → Store k
  metrics : Metrics := {}
  held : List HeldWatch := []

namespace Service

/-- What callers do: they ask a registry, or let go of one of the watches that they hold. -/
inductive Use where
  | call (k : Kind) (number : Nat) (request : Request k)
  | drop (position : Nat)

/-- The call that is made, by its kind and by what it asks for. -/
def Use.asked? : Use → Option (Kind × Operation)
  | call k _ request => some (k, request.call.asks)
  | drop _ => none

def registry (k : Kind) (number : Nat) (s : Service) : Registry k :=
  ⟨s.policies k number, s.stores k number, s.metrics⟩

def put {k : Kind} (number : Nat) (r : Registry k) (s : Service) : Service :=
  { s with
    stores := Function.update s.stores k (Function.update (s.stores k) number r.store)
    metrics := r.metrics }

def call (k : Kind) (number : Nat) (request : Request k) (s : Service) : Service :=
  let (outcome, r) := (s.registry k number).serve request.ambient request.ns request.call
  { s.put number r with held := (HeldWatch.ofOutcome? k number outcome).toList ++ s.held }

def drop (position : Nat) (s : Service) : Service :=
  match s.held[position]? with
  | some w =>
    { s.put w.number (s.registry w.kind w.number).closeWatch with
      held := s.held.eraseIdx position }
  | none => s

def use (s : Service) : Use → Service
  | .call k number request => s.call k number request
  | .drop position => s.drop position

def after (s : Service) (uses : List Use) : Service := uses.foldl use s

def Accounted (s : Service) (calls : List (Kind × Operation)) : Prop :=
  s.metrics.Accounts (calls.map (Prod.map Kind.name Operation.label)) (s.held.map (·.kind.name))

namespace Accounted

variable {s : Service} {calls : List (Kind × Operation)}

theorem call (h : s.Accounted calls) (k : Kind) (number : Nat) (request : Request k) :
    (s.call k number request).Accounted ((k, request.call.asks) :: calls) := by
  let served := (s.registry k number).serve request.ambient request.ns request.call
  have held : (s.call k number request).held.map (·.kind.name)
      = if Registry.opensWatch served.1 then k.name :: s.held.map (·.kind.name)
        else s.held.map (·.kind.name) := by
    change ((HeldWatch.ofOutcome? k number served.1).toList ++ s.held).map (·.kind.name) = _
    match served.1 with
    | .ok (.stream _) => rfl
    | .ok (.object _) | .ok (.page _) | .ok (.deletion _) | .ok .done | .error _ => rfl
  unfold Accounted
  rw [held, List.map_cons, Prod.map_apply, ← Call.verb_eq]
  exact Registry.serve_accounts (r := s.registry k number) h request.ambient request.ns
    request.call

theorem drop (h : s.Accounted calls) (position : Nat) : (s.drop position).Accounted calls := by
  unfold Service.drop
  split
  next w found =>
    obtain ⟨inside, here⟩ := List.getElem?_eq_some_iff.1 found
    have first := (List.getElem_cons_eraseIdx_perm inside).symm.map (·.kind.name)
    rw [here] at first
    exact (Metrics.Accounts.perm h first).watchStopped
  next => exact h

theorem after (h : s.Accounted calls) (uses : List Use) :
    (s.after uses).Accounted ((uses.filterMap Use.asked?).reverse ++ calls) := by
  induction uses generalizing s calls with
  | nil => exact h
  | cons u rest ih =>
    cases u with
    | call k number request =>
      simp only [List.filterMap_cons, Use.asked?, List.reverse_cons, List.append_assoc]
      exact ih (h.call k number request)
    | drop position => exact ih (h.drop position)

end Accounted

/-- Whatever registries there are, whatever they hold, and whatever callers do: for each kind and
verb, the requests over all outcomes and the requests that were timed are the calls; the rejected
objects are the requests that ended so; and the watches that are counted are those still held. -/
theorem accounts (policies : Kind → Nat → WritePolicy) (stores : (k : Kind) → Nat → Store k)
    (uses : List Use) (k : Kind) (operation : Operation) :
    let s := after { policies, stores } uses
    let calls := (uses.filterMap Use.asked?).count (k, operation)
    s.metrics.requestsOf k.name operation.label = calls
      ∧ s.metrics.timed k.name operation.label = calls
      ∧ s.metrics.failures.sample? [k.name, operation.label]
        = s.metrics.requests.sample? [k.name, "Invalid", operation.label]
      ∧ s.metrics.watching k.name = s.held.countP (·.kind = k)
      ∧ 0 ≤ s.metrics.watching k.name := by
  intro s calls
  have start : Accounted { policies, stores } [] := Metrics.Accounts.empty
  have accounted : Accounted s _ := start.after uses
  have asked : (((uses.filterMap Use.asked?).reverse ++ []).map
      (Prod.map Kind.name Operation.label)).count (k.name, operation.label) = calls := by
    rw [List.append_nil, List.map_reverse, List.count_reverse]
    exact List.count_map_of_injective _ _
      (Kind.name_injective.prodMap Operation.label_injective) (k, operation)
  have holding : (s.held.map (·.kind.name)).count k.name = s.held.countP (·.kind = k) := by
    rw [List.count, List.countP_map]
    exact List.countP_congr fun w _ => by simp [Kind.name_injective.eq_iff]
  have watching : s.metrics.watching k.name = s.held.countP (·.kind = k) := by
    rw [accounted.watches, holding]
  refine ⟨?_, ?_, accounted.failures _ _, watching, ?_⟩
  · rw [accounted.requests, asked]
  · rw [accounted.durations, asked]
  · rw [watching]
    exact Int.natCast_nonneg _

/-- A cluster without a name is rejected; of two watches one is let go. -/
example :
    let ask (call : Call .cluster) : Use := .call .cluster 0 (.plain call)
    let s := after { policies := fun _ _ => {}, stores := fun k _ => .empty k } [
      ask (.create (.bareCluster "a") {}), ask (.create (.bareCluster "") {}),
      ask (.watch {}), ask (.watch {}), .drop 1]
    s.metrics.requests
        = [(["Cluster", "Invalid", "create"], 1), (["Cluster", "success", "create"], 1),
          (["Cluster", "success", "watch"], 2)]
      ∧ s.metrics.failures = [(["Cluster", "create"], 1)]
      ∧ s.metrics.watches = [(["Cluster"], 1)] := by
  decide +kernel

end Service

end FleetRegistry
