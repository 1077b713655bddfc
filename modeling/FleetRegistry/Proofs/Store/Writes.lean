import FleetRegistry.Store.Basic
import Mathlib.Logic.Function.Basic

/-!
Runs of writes, and what one write can do: it fails and leaves the store alone, or it leaves exactly
one event. A view is what the store holds under each key; the events of a run, replayed from the
start, give it back.
-/
namespace FleetRegistry

inductive Store.Write (k : Kind) where
  | create (ambient : Ambient) (object : Object k)
  | update (object : Object k)
  | delete (ns : Option String) (name : String) (preconditions : Option Preconditions)

/-- What is held under each key. -/
abbrev View (k : Kind) := ObjectKey → Option (Object k)

namespace Event

variable {k : Kind}

def remaining? (e : Event k) : Option (Object k) :=
  match e.change with
  | .added | .modified _ => some e.object
  | .deleted => none

def onView (e : Event k) (v : View k) : View k :=
  Function.update v e.object.key e.remaining?

def Fits (e : Event k) (v : View k) : Prop :=
  match e.change with
  | .added => v e.object.key = none
  | .modified previous => v e.object.key = some previous
  | .deleted => ∃ o, v e.object.key = some o ∧ e.object = o.withVersion e.revision

/-- The events of a log from the start, on the view without objects. -/
def replay (log : List (Event k)) : View k :=
  log.foldl (fun v e => e.onView v) fun _ => none

@[simp] theorem replay_nil : replay ([] : List (Event k)) = fun _ => none := rfl

@[simp] theorem replay_append_singleton (log : List (Event k)) (e : Event k) :
    replay (log ++ [e]) = e.onView (replay log) := by
  simp [replay]

theorem remaining?_eq_some {e : Event k} {o : Object k} (h : e.remaining? = some o) :
    e.object = o := by
  unfold remaining? at h
  split at h <;> simp_all

theorem onView_of_ne {e : Event k} {v : View k} {key : ObjectKey} (h : key ≠ e.object.key) :
    e.onView v key = v key := Function.update_of_ne h _ _

theorem onView_eq_some {e : Event k} {v : View k} {key : ObjectKey} {o : Object k}
    (h : e.onView v key = some o) :
    (e.object = o ∧ e.object.key = key) ∨ (e.object.key ≠ key ∧ v key = some o) := by
  by_cases same : key = e.object.key
  · subst same
    rw [onView, Function.update_self] at h
    exact .inl ⟨remaining?_eq_some h, rfl⟩
  · rw [onView_of_ne same] at h
    exact .inr ⟨Ne.symm same, h⟩

end Event

namespace Object

variable {k : Kind} (o : Object k)

@[simp] theorem key_withVersion (n : Nat) : (o.withVersion n).key = o.key := rfl

@[simp] theorem anyName_withVersion (n : Nat) : (o.withVersion n).anyName = o.anyName := rfl

@[simp] theorem version_withVersion (n : Nat) :
    (o.withVersion n).metadata.resourceVersion = some (Nat.repr n) := rfl

@[simp] theorem key_entered (ambient : Ambient) (n : Nat) :
    (Store.entered ambient n o).key = o.key := rfl

@[simp] theorem version_entered (ambient : Ambient) (n : Nat) :
    (Store.entered ambient n o).metadata.resourceVersion = some (Nat.repr n) := rfl

end Object

namespace Store

variable {k : Kind}

def Write.apply : Write k → Store k → Outcome (Object k) × Store k
  | .create ambient o => Store.create ambient o
  | .update o => Store.update o
  | .delete ns name preconditions => Store.delete ns name preconditions

def after (s : Store k) (writes : List (Write k)) : Store k :=
  writes.foldl (fun s w => (w.apply s).2) s

@[simp] theorem after_nil (s : Store k) : s.after [] = s := rfl

@[simp] theorem after_cons (s : Store k) (w : Write k) (rest : List (Write k)) :
    s.after (w :: rest) = (w.apply s).2.after rest := rfl

@[simp] theorem after_append (s : Store k) (first rest : List (Write k)) :
    s.after (first ++ rest) = (s.after first).after rest := List.foldl_append

def Write.event? (w : Write k) (s : Store k) : Option (Event k) :=
  match w.apply s with
  | (.ok _, after) => after.history.getLast?
  | (.error _, _) => none

def published (s : Store k) : List (Write k) → List (Event k)
  | [] => []
  | w :: rest => (w.event? s).toList ++ published (w.apply s).2 rest

theorem published_append (s : Store k) (first rest : List (Write k)) :
    s.published (first ++ rest) = s.published first ++ (s.after first).published rest := by
  induction first generalizing s with
  | nil => rfl
  | cons w first ih =>
    rw [List.cons_append, published, ih, published, List.append_assoc, after_cons]

def view (s : Store k) : View k := fun key => (s.find? key).map (·.2)

theorem get_eq (ns : Option String) (name : String) (s : Store k) :
    s.get ns name = match s.view (.ofAddress k ns name) with
      | some o => .ok o
      | none => .error (missing k name) := by
  unfold get view
  cases s.find? (.ofAddress k ns name) <;> rfl

theorem get_eq_ok {ns : Option String} {name : String} {s : Store k} {o : Object k} :
    s.get ns name = .ok o ↔ s.view (.ofAddress k ns name) = some o := by
  rw [get_eq]
  cases s.view (.ofAddress k ns name) <;> simp

end Store

/-! ## Plain values for examples -/

def Ambient.plain : Ambient where
  now := { seconds := 0, nanos := ⟨0, by decide⟩ }
  clock := 0
  uid := "uid"
  suffix := "xxxxx"

def Object.bareCluster (name : String) : Object .cluster := ⟨{ name := some name }, {}, none⟩

end FleetRegistry
