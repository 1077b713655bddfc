/-!
Maps from text to text, kept in ascending order of keys. The order makes the representation of a
map unique, so two maps are equal exactly if they give equal answers.
-/
namespace FleetRegistry

/-- Keys with values, each key once, in ascending order. -/
structure StringMap where
  entries : List (String × String)
  ascending : entries.Pairwise fun a b => a.1 < b.1
  deriving DecidableEq

namespace StringMap

def empty : StringMap := ⟨[], .nil⟩

instance : Inhabited StringMap := ⟨empty⟩

/-- The entry list with a value under a key, the older value replaced. -/
def insertEntry (key value : String) : List (String × String) → List (String × String)
  | [] => [(key, value)]
  | (other, old) :: rest =>
    if key < other then (key, value) :: (other, old) :: rest
    else if key = other then (key, value) :: rest
    else (other, old) :: insertEntry key value rest

theorem fst_of_mem_insertEntry {key value : String} {entries : List (String × String)}
    {entry : String × String} (mem : entry ∈ insertEntry key value entries) :
    entry.1 = key ∨ entry ∈ entries := by
  induction entries with
  | nil => simp_all [insertEntry]
  | cons head rest ih =>
    obtain ⟨other, old⟩ := head
    unfold insertEntry at mem
    split at mem
    · rcases List.mem_cons.1 mem with rfl | mem
      · exact .inl rfl
      · exact .inr mem
    · split at mem
      · rcases List.mem_cons.1 mem with rfl | mem
        · exact .inl rfl
        · exact .inr (List.mem_cons_of_mem _ mem)
      · rcases List.mem_cons.1 mem with rfl | mem
        · exact .inr List.mem_cons_self
        · exact (ih mem).imp id (List.mem_cons_of_mem _)

theorem insertEntry_ascending (key value : String) {entries : List (String × String)}
    (ascending : entries.Pairwise fun a b => a.1 < b.1) :
    (insertEntry key value entries).Pairwise fun a b => a.1 < b.1 := by
  induction entries with
  | nil => simp [insertEntry]
  | cons head rest ih =>
    obtain ⟨other, old⟩ := head
    have ⟨below, tail⟩ := List.pairwise_cons.1 ascending
    unfold insertEntry
    split
    next lt =>
      refine List.pairwise_cons.2 ⟨fun entry mem => ?_, ascending⟩
      rcases List.mem_cons.1 mem with rfl | mem
      · exact lt
      · exact String.lt_trans lt (below entry mem)
    next notLt =>
      split
      next eq =>
        subst eq
        exact List.pairwise_cons.2 ⟨below, tail⟩
      next ne =>
        refine List.pairwise_cons.2 ⟨fun entry mem => ?_, ih tail⟩
        rcases fst_of_mem_insertEntry mem with eq | mem
        · rw [eq]
          exact Std.lt_of_le_of_ne (Std.not_lt.1 notLt) (Ne.symm ne)
        · exact below entry mem

def insert (map : StringMap) (key value : String) : StringMap :=
  ⟨insertEntry key value map.entries, insertEntry_ascending key value map.ascending⟩

/-- The map of a list of entries; of several values under one key the last counts. -/
def ofList (entries : List (String × String)) : StringMap :=
  entries.foldl (fun map entry => map.insert entry.1 entry.2) empty

def get? (map : StringMap) (key : String) : Option String :=
  (map.entries.find? fun entry => entry.1 == key).map (·.2)

def isEmpty (map : StringMap) : Bool := map.entries.isEmpty

theorem insertEntry_eq_append {key value : String} {entries : List (String × String)}
    (above : ∀ entry ∈ entries, entry.1 < key) :
    insertEntry key value entries = entries ++ [(key, value)] := by
  induction entries with
  | nil => rfl
  | cons head rest ih =>
    obtain ⟨other, old⟩ := head
    have lt : other < key := above (other, old) List.mem_cons_self
    have ne : key ≠ other := fun eq => String.lt_irrefl _ (eq ▸ lt)
    simp [insertEntry, String.lt_asymm lt, ne,
      ih fun entry mem => above entry (List.mem_cons_of_mem _ mem)]

/-- A list that is already in order is taken as it stands. -/
theorem entries_ofList {entries : List (String × String)}
    (ascending : entries.Pairwise fun a b => a.1 < b.1) : (ofList entries).entries = entries := by
  suffices general : ∀ (todo : List (String × String)) (done : StringMap),
      (done.entries ++ todo).Pairwise (fun a b => a.1 < b.1) →
      (todo.foldl (fun map entry => map.insert entry.1 entry.2) done).entries
        = done.entries ++ todo by
    simpa [ofList, empty] using general entries empty (by simpa [empty] using ascending)
  intro todo
  induction todo with
  | nil => simp
  | cons entry rest ih =>
    intro done ordered
    have step : (done.insert entry.1 entry.2).entries = done.entries ++ [entry] :=
      insertEntry_eq_append fun earlier mem =>
        (List.pairwise_append.1 ordered).2.2 earlier mem entry List.mem_cons_self
    rw [List.foldl_cons, ih _ (by simpa [step] using ordered), step]
    simp

@[simp] theorem ofList_entries (map : StringMap) : ofList map.entries = map := by
  have same := entries_ofList map.ascending
  cases h : ofList map.entries
  cases map
  simp_all

end StringMap

end FleetRegistry
