import FleetRegistry.Number.Binary64

/-!
JSON values. Integers are exact and differ from every floating point number; the members of an
object carry distinct names, and their order matters to a printer but not to equality.

The operations on members keep names distinct and say what they do through `find?`: `set` changes
one name, `erase` removes one name, and all other names keep their values.
-/
namespace FleetRegistry

inductive Json where
  | null
  | bool (value : Bool)
  | int (value : Int)
  | float (value : Number.Binary64)
  | str (text : String)
  | arr (items : List Json)
  | obj (members : List (String × Json))
  deriving Inhabited

namespace Json

/-- The members of an object: names with values. -/
abbrev Members := List (String × Json)

namespace Members

def find? (name : String) : Members → Option Json
  | [] => none
  | (other, value) :: rest => if other = name then some value else find? name rest

/-- Puts a value under a name: in its place if the name is there, at the end otherwise. -/
def set (name : String) (value : Json) : Members → Members
  | [] => [(name, value)]
  | (other, old) :: rest =>
    if other = name then (name, value) :: rest else (other, old) :: set name value rest

def erase (name : String) (members : Members) : Members :=
  members.filter fun member => member.1 ≠ name

def has (name : String) (members : Members) : Bool := (find? name members).isSome

theorem mem_of_find? {name : String} {value : Json} {members : Members}
    (found : find? name members = some value) : (name, value) ∈ members := by
  induction members with
  | nil => cases found
  | cons member rest ih =>
    obtain ⟨other, old⟩ := member
    unfold find? at found
    split at found
    next same =>
      subst same
      cases found
      exact List.mem_cons_self
    next => exact List.mem_cons_of_mem _ (ih found)

theorem eq_or_mem_of_mem_set {name : String} {value : Json} {members : Members}
    {member : String × Json} (mem : member ∈ set name value members) :
    member = (name, value) ∨ member ∈ members := by
  induction members with
  | nil => exact .inl (List.mem_singleton.1 mem)
  | cons first rest ih =>
    obtain ⟨other, old⟩ := first
    unfold set at mem
    split at mem
    next => exact (List.mem_cons.1 mem).imp id (List.mem_cons_of_mem _)
    next =>
      rcases List.mem_cons.1 mem with rfl | mem
      · exact .inr List.mem_cons_self
      · exact (ih mem).imp id (List.mem_cons_of_mem _)

@[simp] theorem find?_set_self (name : String) (value : Json) (members : Members) :
    find? name (set name value members) = some value := by
  induction members with
  | nil => simp [set, find?]
  | cons member rest ih =>
    obtain ⟨other, old⟩ := member
    by_cases h : other = name <;> simp [set, find?, h, ih]

theorem find?_set_of_ne {name other : String} (ne : other ≠ name) (value : Json)
    (members : Members) : find? other (set name value members) = find? other members := by
  induction members with
  | nil => simp [set, find?, ne.symm]
  | cons member rest ih =>
    obtain ⟨key, old⟩ := member
    by_cases h : key = name
    · subst h; simp [set, find?, ne.symm]
    · by_cases h' : key = other
      · subst h'; simp [set, find?, h]
      · simp [set, find?, h, h', ih]

@[simp] theorem find?_erase_self (name : String) (members : Members) :
    find? name (erase name members) = none := by
  induction members with
  | nil => rfl
  | cons member rest ih =>
    obtain ⟨other, old⟩ := member
    by_cases h : other = name
    · simpa [erase, h] using ih
    · simpa [erase, h, find?] using ih

theorem find?_erase_of_ne {name other : String} (ne : other ≠ name) (members : Members) :
    find? other (erase name members) = find? other members := by
  induction members with
  | nil => rfl
  | cons member rest ih =>
    obtain ⟨key, old⟩ := member
    by_cases h : key = name
    · subst h; simpa [erase, find?, ne.symm] using ih
    · by_cases h' : key = other
      · subst h'; simp [erase, find?, h]
      · simpa [erase, find?, h, h'] using ih

/-- Puts a value under a name among members in ascending order of names. A value that is already
there is replaced. -/
def insertSorted (name : String) (value : Json) : Members → Members
  | [] => [(name, value)]
  | (other, old) :: rest =>
    if name < other then (name, value) :: (other, old) :: rest
    else if name = other then (name, value) :: rest
    else (other, old) :: insertSorted name value rest

/-- The members in ascending order of names; of several values under one name the last counts. -/
def sorted (members : Members) : Members :=
  members.foldl (fun done member => insertSorted member.1 member.2 done) []

end Members

def member? (name : String) : Json → Option Json
  | .obj members => Members.find? name members
  | _ => none

def members? : Json → Option Members
  | .obj members => some members
  | _ => none

def text? : Json → Option String
  | .str text => some text
  | _ => none

def items? : Json → Option (List Json)
  | .arr items => some items
  | _ => none

def isObject : Json → Bool
  | .obj _ => true
  | _ => false

def isNull : Json → Bool
  | .null => true
  | _ => false

mutual

/-- Equality of values: integers only equal integers, floating point numbers are compared
numerically, and objects are equal if they have equal values under the same names. -/
def same : Json → Json → Bool
  | .null, .null => true
  | .bool x, .bool y => x == y
  | .int x, .int y => x == y
  | .float x, .float y => x.same y
  | .str x, .str y => x == y
  | .arr xs, .arr ys => sameItems xs ys
  | .obj xs, .obj ys => xs.length == ys.length && sameMembers xs ys
  | _, _ => false

def sameItems : List Json → List Json → Bool
  | [], [] => true
  | x :: xs, y :: ys => same x y && sameItems xs ys
  | _, _ => false

def sameMembers : List (String × Json) → List (String × Json) → Bool
  | [], _ => true
  | (name, x) :: xs, ys =>
    (match Members.find? name ys with
      | some y => same x y
      | none => false) && sameMembers xs ys

end

mutual

/-- The value with the members of every object in ascending order of names, the last of several
values under one name kept. -/
def canonical : Json → Json
  | .arr items => .arr (canonicalItems items)
  | .obj members => .obj (Members.sorted (canonicalMembers members))
  | value => value

def canonicalItems : List Json → List Json
  | [] => []
  | item :: rest => canonical item :: canonicalItems rest

def canonicalMembers : List (String × Json) → List (String × Json)
  | [] => []
  | (name, value) :: rest => (name, canonical value) :: canonicalMembers rest

end

/-- The object of the members that have a value, in the order given. -/
def ofFields (fields : List (String × Option Json)) : Json :=
  .obj (fields.filterMap fun field => field.2.map (field.1, ·))

end Json

end FleetRegistry
