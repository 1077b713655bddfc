import FleetRegistry.Proofs.Interleaving.Guards
import FleetRegistry.Proofs.Registry.Effects

/-!
Calls that fail. A call about one object reads, checks, and writes at most once, as the last thing
it does; the store refuses a write before it changes anything. So a call that fails has changed
nothing at all.
-/
namespace FleetRegistry

variable {k : Kind}

/-- Whether a call is about one object that it may write. -/
def Call.writesOne : Call k → Bool
  | .create .. | .update .. | .patch .. | .delete .. => true
  | .get _ | .list _ | .watch _ | .deleteCollection .. => false

namespace Steps

variable {α : Type} {p : Steps k α} {n : Nat} {s : Store k} {log : List (Event k)}

/-- Steps with at most one write, at their end, change nothing, or they end well and leave what that
write leaves. -/
theorem Within.run (h : p.Within n) (remembers : s.Remembers log) :
    (p.run s).2 = s ∨
      ∃ w : Store.Write k, ∃ o a, w.apply s = (.ok o, (p.run s).2) ∧ (p.run s).1 = .ok a := by
  induction p generalizing n with
  | done outcome => exact .inl rfl
  | read ns name next ih =>
    cases n with
    | zero => exact h.elim
    | succ n => exact ih _ (h _)
  | look next => exact h.elim
  | write w next =>
    -- The write is the last step, and its outcome is that of all steps.
    rw [run_write]
    rcases remembers.apply w with ⟨error, refused⟩ | ⟨e, written, -⟩
    · rw [refused, h.1 error]
      exact .inl rfl
    · obtain ⟨a, eq⟩ := h.2 e.object
      rw [written, eq]
      exact .inr ⟨w, e.object, a, Prod.ext written rfl, rfl⟩

end Steps

namespace Registry

variable {policy : WritePolicy} {ambient : Ambient} {ns : Option String}

theorem within_of_writesOne {call : Call k} (one : call.writesOne = true) :
    ∃ n, (callSteps policy ambient ns call).Within n := by
  cases call with
  | get | list | watch | deleteCollection => cases one
  | create o options => exact ⟨0, (createSteps_within 0 o).map _⟩
  | update side o options => exact ⟨1, (updateSteps_within o).map _⟩
  | patch name document options => exact ⟨2, (patchSteps_within document).map _⟩
  | delete name options => exact ⟨1, (deleteSteps_within ambient.now options).map _⟩

/-- Whatever was called before: a call about one object that fails leaves the store as it was, its
objects, its revision and its history; one that succeeds leaves it so too, or as a single write
leaves it. -/
theorem failed_call (policy : WritePolicy) (requests : List (Request k)) (ambient : Ambient)
    (ns : Option String) (call : Call k) (one : call.writesOne = true) :
    let s := after policy (.empty k) requests
    let result := perform policy ambient ns call s
    (∀ error, result.1 = .error error → result.2 = s)
      ∧ (result.2 = s ∨ ∃ w : Store.Write k, ∃ o, w.apply s = (.ok o, result.2)) := by
  intro s result
  obtain ⟨log, remembers⟩ := Store.remembers_empty.calls policy requests
  obtain ⟨n, within⟩ := within_of_writesOne one
  have ends := within.run remembers
  rw [run_callSteps] at ends
  rcases ends with same | ⟨w, o, a, written, ok⟩
  · exact ⟨fun _ _ => same, .inl same⟩
  · refine ⟨fun error failed => ?_, .inr ⟨w, o, written⟩⟩
    cases ok.symm.trans failed

/-- A patch that would give a cluster another identity is refused after both of its readings, and
the cluster stays. -/
theorem failed_call_other_identity :
    let s := after {} (.empty .cluster) [.plain (.create (.bareCluster "a") {})]
    let document := Json.obj [("metadata", .obj [("uid", .str "other")])]
    let result := perform {} .plain none (.patch "a" ⟨.merge, document, none⟩ {}) s
    result.1.isOk = false ∧ result.2 = s := by
  intro s document result
  have refused : result.1.isOk = false := by decide +kernel
  refine ⟨refused, ?_⟩
  have ⟨unchanged, _⟩ := failed_call {} [.plain (.create (.bareCluster "a") {})] .plain none
    (.patch "a" ⟨.merge, document, none⟩ {}) rfl
  cases outcome : result.1 with
  | error error => exact unchanged error outcome
  | ok answer => simp [outcome, Except.isOk, Except.toBool] at refused

end Registry

end FleetRegistry
