import FleetRegistry.Proofs.Store.Journal
import FleetRegistry.Store.Watch

/-!
What a watcher makes of the events it is told about. A watcher that starts from the selected part of
a view and follows what it is told about the events of a journal ends with the selected part of the
view that the journal leads to, and is never told of an object it cannot place.
-/
namespace FleetRegistry

variable {k : Kind}

namespace View

/-- The view of the objects of a list, the first of each key. -/
def ofList (objects : List (Object k)) : View k := fun key => objects.find? fun o => o.key = key

def only (wanted : Object k → Bool) (v : View k) : View k := fun key => (v key).filter wanted

end View

namespace WatchEvent

/-- What a watcher makes of an event: it inserts, replaces or removes the object under its key. -/
def onView (e : WatchEvent k) (v : View k) : View k :=
  match e with
  | added o => Function.update v o.key (some o)
  | modified o => Function.update v o.key (some o)
  | deleted o => Function.update v o.key none
  | bookmark _ => v

/-- Whether a watcher can place an event: an addition is of an object it does not have, a change or
deletion of one that it has. -/
def Placed (e : WatchEvent k) (v : View k) : Prop :=
  match e with
  | added o => v o.key = none
  | modified o => v o.key ≠ none
  | deleted o => v o.key ≠ none
  | bookmark _ => True

def follow (v : View k) (events : List (WatchEvent k)) : View k :=
  events.foldl (fun v e => e.onView v) v

def AllPlaced (v : View k) : List (WatchEvent k) → Prop
  | [] => True
  | e :: rest => e.Placed v ∧ AllPlaced (e.onView v) rest

@[simp] theorem follow_nil (v : View k) : follow v [] = v := rfl

@[simp] theorem follow_cons (v : View k) (e : WatchEvent k) (rest : List (WatchEvent k)) :
    follow v (e :: rest) = follow (e.onView v) rest := rfl

@[simp] theorem follow_append (v : View k) (first rest : List (WatchEvent k)) :
    follow v (first ++ rest) = follow (follow v first) rest := List.foldl_append

@[simp] theorem allPlaced_append (v : View k) (first rest : List (WatchEvent k)) :
    AllPlaced v (first ++ rest) ↔ AllPlaced v first ∧ AllPlaced (follow v first) rest := by
  induction first generalizing v with
  | nil => simp [AllPlaced]
  | cons e first ih => simp [AllPlaced, ih, and_assoc]

end WatchEvent

/-! ## What is wanted -/

def Object.wanted (ns : Option String) (selection : Selection) (o : Object k) : Bool :=
  o.isIn ns && selection.selects o

@[simp] theorem Object.wanted_withVersion (ns : Option String) (selection : Selection)
    (o : Object k) (n : Nat) : (o.withVersion n).wanted ns selection = o.wanted ns selection := rfl

theorem Object.isIn_of_key {ns : Option String} (named : ns ≠ some "") {o o' : Object k}
    (same : o.key = o'.key) : o.isIn ns = o'.isIn ns := by
  unfold isIn
  cases h : k.namespaced with
  | false => rfl
  | true =>
    cases ns with
    | none => rfl
    | some n =>
      have named : n ≠ "" := fun eq => named (eq ▸ rfl)
      have texts : o.metadata.ns.getD "" = o'.metadata.ns.getD "" := by
        simpa [key, ObjectKey.ofAddress, h] using congrArg ObjectKey.ns same
      have keyed (m : Option String) : (m == some n) = decide (m.getD "" = n) := by
        cases m with
        | none => simp [named.symm]
        | some m => rw [Option.some_beq_some, Option.getD_some, beq_eq_decide]
      simp [keyed, texts]

namespace Event

theorem only_onView_of_remaining {wanted : Object k → Bool} {e : Event k} (v : View k) :
    (e.onView v).only wanted
      = Function.update (v.only wanted) e.object.key (e.remaining?.filter wanted) := by
  funext key
  by_cases h : key = e.object.key
  · subst h
    simp [View.only, onView]
  · simp [View.only, onView_of_ne h, h]

section Seen

variable {ns : Option String} {selection : Selection} {e : Event k}

theorem seen?_added (h : e.change = .added) : e.seen? ns selection =
    if e.object.wanted ns selection then some (.added e.object) else none := by
  unfold seen? Object.wanted
  cases e.object.isIn ns <;> cases selection.selects e.object <;> simp [h]

theorem seen?_deleted (h : e.change = .deleted) : e.seen? ns selection =
    if e.object.wanted ns selection then some (.deleted e.object) else none := by
  unfold seen? Object.wanted
  cases e.object.isIn ns <;> cases selection.selects e.object <;> simp [h]

theorem seen?_modified {previous : Object k} (h : e.change = .modified previous)
    (together : previous.isIn ns = e.object.isIn ns) : e.seen? ns selection =
    if previous.wanted ns selection then
      if e.object.wanted ns selection then some (.modified e.object)
      else some (.deleted (previous.withVersion e.revision))
    else if e.object.wanted ns selection then some (.added e.object) else none := by
  unfold seen? Object.wanted
  simp only [h, together]
  cases e.object.isIn ns <;> cases selection.selects previous <;>
    cases selection.selects e.object <;> rfl

theorem seen?_step (named : ns ≠ some "") (selection : Selection) {v : View k}
    (keyed : ∀ key o, v key = some o → o.key = key) (fits : e.Fits v) :
    WatchEvent.AllPlaced (v.only (Object.wanted ns selection)) (e.seen? ns selection).toList
      ∧ WatchEvent.follow (v.only (Object.wanted ns selection)) (e.seen? ns selection).toList
        = (e.onView v).only (Object.wanted ns selection) := by
  rw [only_onView_of_remaining]
  cases h : e.change with
  | added =>
    have absent : v e.object.key = none := by simpa [Fits, h] using fits
    have remaining : e.remaining? = some e.object := by simp [remaining?, h]
    rw [seen?_added h, remaining, Option.filter_some]
    by_cases w : e.object.wanted ns selection
    · simp [w, WatchEvent.AllPlaced, WatchEvent.Placed, WatchEvent.onView, View.only, absent]
    · have same : v.only (Object.wanted ns selection) e.object.key = none := by
        simp [View.only, absent]
      simp [w, WatchEvent.AllPlaced, ← same]
  | modified previous =>
    have there : v e.object.key = some previous := by simpa [Fits, h] using fits
    have key : previous.key = e.object.key := keyed _ _ there
    have remaining : e.remaining? = some e.object := by simp [remaining?, h]
    rw [seen?_modified h (Object.isIn_of_key named key), remaining,
      Option.filter_some]
    have before : v.only (Object.wanted ns selection) e.object.key
        = if previous.wanted ns selection then some previous else none := by
      simp [View.only, there, Option.filter_some]
    -- The object was wanted or not, and is wanted or not: it stays, leaves, enters or is no matter.
    by_cases w : previous.wanted ns selection <;> by_cases w' : e.object.wanted ns selection
    · simp [w, w', WatchEvent.AllPlaced, WatchEvent.Placed, WatchEvent.onView, before]
    · simp [w, w', WatchEvent.AllPlaced, WatchEvent.Placed, WatchEvent.onView, before, key]
    · simp [w, w', WatchEvent.AllPlaced, WatchEvent.Placed, WatchEvent.onView, before]
    · rw [if_neg w] at before
      simp [w, w', WatchEvent.AllPlaced, ← before]
  | deleted =>
    obtain ⟨o, there, last⟩ :
        ∃ o, v e.object.key = some o ∧ e.object = o.withVersion e.revision := by
      simpa [Fits, h] using fits
    have remaining : e.remaining? = none := by simp [remaining?, h]
    have same : e.object.wanted ns selection = o.wanted ns selection := by rw [last]; rfl
    have before : v.only (Object.wanted ns selection) e.object.key
        = if o.wanted ns selection then some o else none := by
      simp [View.only, there, Option.filter_some]
    rw [seen?_deleted h, remaining, same, Option.filter_none]
    by_cases w : o.wanted ns selection
    · simp [w, WatchEvent.AllPlaced, WatchEvent.Placed, WatchEvent.onView, before]
    · rw [if_neg w] at before
      simp [w, WatchEvent.AllPlaced, ← before]

/-- A run of events: a watcher that has the wanted part of what a journal leads to, and is told of
the events that follow, ends with the wanted part of what they lead to. -/
theorem seen?_run (named : ns ≠ some "") (selection : Selection) {log rest : List (Event k)}
    (h : Legal (log ++ rest)) :
    WatchEvent.AllPlaced ((replay log).only (Object.wanted ns selection))
        (rest.filterMap (·.seen? ns selection))
      ∧ WatchEvent.follow ((replay log).only (Object.wanted ns selection))
        (rest.filterMap (·.seen? ns selection))
        = (replay (log ++ rest)).only (Object.wanted ns selection) := by
  induction rest generalizing log with
  | nil => simp [WatchEvent.AllPlaced]
  | cons e rest ih =>
    have ⟨placed, follows⟩ := seen?_step named selection
      (fun _ _ => key_of_replay) (h log e rest rfl).2.2
    have split : log ++ e :: rest = log ++ [e] ++ rest := by simp
    rw [split] at h ⊢
    have ⟨placed', follows'⟩ := ih h
    have told : (e :: rest).filterMap (·.seen? ns selection)
        = (e.seen? ns selection).toList ++ rest.filterMap (·.seen? ns selection) := by
      cases eq : e.seen? ns selection <;> simp [eq]
    rw [told, WatchEvent.allPlaced_append, WatchEvent.follow_append, follows,
      ← replay_append_singleton]
    exact ⟨⟨placed, placed'⟩, follows'⟩

end Seen

end Event

end FleetRegistry
