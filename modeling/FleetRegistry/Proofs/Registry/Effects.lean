import FleetRegistry.Proofs.Registry.Steps
import FleetRegistry.Proofs.Store.Journal

/-!
What the calls of a registry do to its store: the steps of a call that change the store are writes,
so each call comes down to some of them. Whatever holds after all runs of writes therefore holds
after all runs of calls.
-/
namespace FleetRegistry

/-- A call with what it finds around it and the namespace it is about. -/
structure Request (k : Kind) where
  ambient : Ambient
  ns : Option String
  call : Call k

def Request.plain (call : Call .cluster) : Request .cluster := ⟨.plain, none, call⟩

namespace Registry

variable {k : Kind}

def after (policy : WritePolicy) (s : Store k) (requests : List (Request k)) : Store k :=
  requests.foldl (fun s r => (perform policy r.ambient r.ns r.call s).2) s

theorem after_append (policy : WritePolicy) (s : Store k) (first rest : List (Request k)) :
    after policy s (first ++ rest) = after policy (after policy s first) rest := List.foldl_append

end Registry

/-! ## The writes of a call -/

namespace Steps

variable {k : Kind} {α : Type}

/-- The writes that some steps make, taken without a break. -/
def writes : Steps k α → Store k → List (Store.Write k)
  | done _, _ => []
  | read ns name next, s => (next (s.get ns name)).writes s
  | look next, s => (next s).writes s
  | write w next, s => w :: (next (w.apply s).1).writes (w.apply s).2

theorem run_store (p : Steps k α) (s : Store k) : (p.run s).2 = s.after (p.writes s) := by
  induction p generalizing s with
  | done outcome => rfl
  | read ns name next ih => exact ih _ s
  | look next ih => exact ih s s
  | write w next ih => exact ih _ _

end Steps

namespace Registry

variable {k : Kind}

def writes (policy : WritePolicy) (s : Store k) : List (Request k) → List (Store.Write k)
  | [] => []
  | r :: rest =>
    (callSteps policy r.ambient r.ns r.call).writes s
      ++ writes policy (perform policy r.ambient r.ns r.call s).2 rest

def published (policy : WritePolicy) (s : Store k) (requests : List (Request k)) :
    List (Event k) := s.published (writes policy s requests)

/-- Every call comes down to writes of the store. -/
theorem perform_store (policy : WritePolicy) (r : Request k) (s : Store k) :
    (perform policy r.ambient r.ns r.call s).2
      = s.after ((callSteps policy r.ambient r.ns r.call).writes s) := by
  rw [← run_callSteps, Steps.run_store]

theorem after_eq (policy : WritePolicy) (s : Store k) (requests : List (Request k)) :
    after policy s requests = s.after (writes policy s requests) := by
  induction requests generalizing s with
  | nil => rfl
  | cons r rest ih =>
    rw [writes, Store.after_append, ← perform_store, ← ih]
    rfl

theorem writes_append (policy : WritePolicy) (s : Store k) (first rest : List (Request k)) :
    writes policy s (first ++ rest)
      = writes policy s first ++ writes policy (after policy s first) rest := by
  induction first generalizing s with
  | nil => rfl
  | cons r first ih =>
    simp only [List.cons_append, writes, List.append_assoc, ih]
    rfl

theorem published_append (policy : WritePolicy) (s : Store k) (first rest : List (Request k)) :
    published policy s (first ++ rest)
      = published policy s first ++ published policy (after policy s first) rest := by
  unfold published
  rw [writes_append, Store.published_append, ← after_eq]

end Registry

namespace Store.Remembers

variable {k : Kind} {s : Store k} {log : List (Event k)}

theorem after_calls (h : s.Remembers log) (policy : WritePolicy) (requests : List (Request k)) :
    (Registry.after policy s requests).Remembers
      (log ++ Registry.published policy s requests) := by
  rw [Registry.after_eq]
  exact h.after_published _

theorem perform (h : s.Remembers log) (policy : WritePolicy) (r : Request k) :
    ∃ more, (Registry.perform policy r.ambient r.ns r.call s).2.Remembers (log ++ more) :=
  ⟨_, h.after_calls policy [r]⟩

theorem calls (h : s.Remembers log) (policy : WritePolicy) (requests : List (Request k)) :
    ∃ more, (Registry.after policy s requests).Remembers (log ++ more) :=
  ⟨_, h.after_calls policy requests⟩

end Store.Remembers

end FleetRegistry
