import FleetRegistry.Json.Decode
import Mathlib.Data.List.Forall2

/-!
Written forms that read back. A form is put together from the forms of its fields, so each type has
its own law, and the law of a record follows from those of the types of its fields.
-/
namespace FleetRegistry.Json

/-! ## Fields of a written record -/

def presentMembers (fields : List (String × Option Json)) : Members :=
  fields.filterMap fun field => field.2.map (field.1, ·)

@[simp] theorem members?_ofFields (fields : List (String × Option Json)) :
    (ofFields fields).members? = some (presentMembers fields) := rfl

@[simp] theorem record?_ofFields (names : List String) (fields : List (String × Option Json)) :
    (ofFields fields).record? names = some (presentMembers fields) := rfl

def valuesUnder (name : String) (fields : List (String × Option Json)) : List (Option Json) :=
  (fields.filter fun field => field.1 = name).map (·.2)

theorem find?_presentMembers {name : String} {fields : List (String × Option Json)}
    {value : Option Json} (listed : valuesUnder name fields = [value]) :
    (presentMembers fields).find? name = value := by
  have first : (presentMembers fields).find? name
      = (valuesUnder name fields).foldr (fun value rest => value.or rest) none := by
    clear listed
    induction fields with
    | nil => rfl
    | cons field rest ih =>
      obtain ⟨other, value⟩ := field
      by_cases same : other = name <;> cases value <;>
        simp_all [presentMembers, valuesUnder, Members.find?]
  rw [first, listed, List.foldr_cons, List.foldr_nil, Option.or_none]

/-! ## Forms that read back -/

/-- The written form of a value is never null, and reads back as what is kept of the value. -/
structure ReadsBack {α : Type} (encode : α → Json) (decode : Json → Option α) (kept : α → α) :
    Prop where
  notNull : ∀ a, encode a ≠ .null
  read : ∀ a, decode (encode a) = some (kept a)

namespace ReadsBack

variable {α : Type} {encode : α → Json} {decode : Json → Option α} {kept : α → α}

variable {name : String} {fields : List (String × Option Json)}

theorem optional_some (reads : ReadsBack encode decode kept) {members : Members} {a : α}
    (found : members.find? name = some (encode a)) :
    optionalField decode name members = some (some (kept a)) := by
  have notNull := reads.notNull a
  have read := reads.read a
  unfold optionalField
  rw [found]
  generalize encode a = value at notNull read
  cases value <;> simp_all

theorem optional (reads : ReadsBack encode decode kept) {a : Option α}
    (listed : valuesUnder name fields = [a.map encode]) :
    optionalField decode name (presentMembers fields) = some (a.map kept) := by
  have found := find?_presentMembers listed
  cases a with
  | none => rw [optionalField, found]; rfl
  | some a => exact reads.optional_some found

theorem defaulted (reads : ReadsBack encode decode kept) {a : α} (default : α)
    (listed : valuesUnder name fields = [some (encode a)]) :
    defaultedField default decode name (presentMembers fields) = some (kept a) := by
  rw [defaultedField, reads.optional_some (find?_presentMembers listed)]
  rfl

theorem required (reads : ReadsBack encode decode kept) {a : α}
    (listed : valuesUnder name fields = [some (encode a)]) :
    requiredField decode name (presentMembers fields) = some (kept a) := by
  rw [requiredField, find?_presentMembers listed]
  exact reads.read a

theorem list (reads : ReadsBack encode decode kept) :
    ReadsBack (fun items : List α => .arr (items.map encode)) (list? decode) (List.map kept) where
  notNull _ := nofun
  read := list?_arr reads.read

end ReadsBack

/-! ## What decoders give -/

def Gives {α : Type} (decode : Json → Option α) (P : α → Prop) : Prop :=
  ∀ ⦃value a⦄, decode value = some a → P a

theorem mapM_eq_some_iff {α β : Type} {f : α → Option β} {given : List α} {items : List β} :
    given.mapM f = some items ↔ List.Forall₂ (fun a b => f a = some b) given items := by
  induction given generalizing items with
  | nil => cases items <;> simp
  | cons first rest ih =>
    simp only [List.mapM_cons, Option.bind_eq_bind, Option.bind_eq_some_iff, Option.pure_def,
      Option.some.injEq, ih]
    constructor
    · rintro ⟨_, here, _, later, rfl⟩
      exact .cons here later
    · rintro (_ | ⟨here, later⟩)
      exact ⟨_, here, _, later, rfl⟩

theorem Gives.list {α : Type} {decode : Json → Option α} {P : α → Prop} (gives : Gives decode P) :
    Gives (list? decode) fun items => ∀ a ∈ items, P a := by
  intro value items read
  simp only [list?, Option.bind_eq_some_iff, mapM_eq_some_iff] at read
  obtain ⟨given, -, each⟩ := read
  induction each with
  | nil => exact List.forall_mem_nil _
  | cons here _ ih => exact List.forall_mem_cons.2 ⟨gives here, ih⟩

theorem optionalField_eq_some {α : Type} {decode : Json → Option α} {name : String}
    {members : Members} {a : α} (read : optionalField decode name members = some (some a)) :
    ∃ value, value ≠ .null ∧ decode value = some a := by
  unfold optionalField at read
  split at read
  next => cases read
  next => cases read
  next value notNull _ =>
    obtain ⟨_, read, same⟩ := Option.map_eq_some_iff.1 read
    cases same
    exact ⟨value, fun null => notNull (null ▸ rfl), read⟩

theorem read_then {α β : Type} {field : Option α} {rest : α → Option β} {a : α} {result : Option β}
    (read : field = some a) (others : rest a = result) : field >>= rest = result := by
  rw [read]
  exact others

theorem readsBack_text : ReadsBack .str text? id := ⟨nofun, fun _ => rfl⟩

theorem readsBack_bool : ReadsBack .bool bool? id := ⟨nofun, fun _ => rfl⟩

theorem readsBack_int64 : ReadsBack ofInt64 int64? id := ⟨nofun, int64?_ofInt64⟩

theorem readsBack_int32 : ReadsBack ofInt32 int32? id := ⟨nofun, int32?_ofInt32⟩

theorem readsBack_stringMap : ReadsBack ofStringMap stringMap? id := ⟨nofun, stringMap?_ofStringMap⟩

theorem readsBack_texts : ReadsBack ofStrings (list? text?) (List.map id) := readsBack_text.list

end FleetRegistry.Json
