import FleetRegistry.Proofs.Json.Flat
import FleetRegistry.Proofs.Text.Base64
import FleetRegistry.Store.Token

/-!
A continue token leads back to what it was made from.
-/
namespace FleetRegistry

theorem Json.natBelow?_eq_some {limit n : Nat} {value : Json} :
    natBelow? limit value = some n ↔ value = .int n ∧ n < limit := by
  constructor
  · intro read
    unfold natBelow? at read
    split at read
    next value =>
      split at read
      next within =>
        cases read
        exact ⟨congrArg Json.int (Int.toNat_of_nonneg within.1).symm,
          (Int.toNat_lt within.1).2 within.2⟩
      next => cases read
    next => cases read
  · rintro ⟨rfl, below⟩
    have cast : (n : Int) < limit := Int.ofNat_lt.2 below
    simp [natBelow?, cast]

namespace ContinueToken

def members (t : ContinueToken) : Json.Members :=
  [("v", .str formatVersion), ("rv", .int t.revision), ("start", .int t.start)]

theorem flat_members {t : ContinueToken} (revision : t.revision < numberLimit)
    (start : t.start < numberLimit) : ∀ member ∈ t.members, Json.FlatMember member := by
  have word {n : Nat} (h : n < numberLimit) : n ≤ Json.maxWord := Nat.le_sub_one_of_lt h
  have version : ∀ c ∈ formatVersion.toList, Json.IsPlain c := Json.plain_of_all (by decide)
  simp only [members, List.mem_cons, List.not_mem_nil, or_false, forall_eq_or_imp, forall_eq]
  exact ⟨Json.flatMember_of_all (by decide) (.text version),
    Json.flatMember_of_all (by decide) (.number (word revision)),
    Json.flatMember_of_all (by decide) (.number (word start))⟩

def writtenValue (member : String × Json) : String × List Char :=
  (member.1, (Json.compact member.2).toList)

theorem mapM_named? {members : Json.Members}
    (flat : ∀ member ∈ members, Json.FlatMember member) :
    (members.map Json.writtenMember).mapM named? = some (members.map writtenValue) := by
  induction members with
  | nil => rfl
  | cons member rest ih =>
    have ⟨⟨plain, _⟩, later⟩ := List.forall_mem_cons.1 flat
    have name : named? (Json.writtenMember member) = some (writtenValue member) := by
      simp only [named?, Json.writtenMember, Json.readPart?_compact (.text plain),
        Option.bind_some, Json.text?, Option.map_some, writtenValue]
    simp only [List.map_cons, List.mapM_cons, name, ih later, Option.bind_eq_bind,
      Option.bind_some, Option.pure_def]

theorem single?_written {members : Json.Members} {name : String} {value : Json}
    (flat : Json.IsFlat value) (only : members.filter (·.1 = name) = [(name, value)]) :
    single? name (members.map writtenValue) = some value := by
  have found : (members.map writtenValue).filter (·.1 = name) = [writtenValue (name, value)] := by
    rw [List.filter_map]
    exact congrArg (List.map writtenValue) only
  simp only [single?, found, writtenValue, Json.readPart?_compact flat]

theorem parts?_written {t : ContinueToken} (flat : ∀ member ∈ t.members, Json.FlatMember member) :
    parts? (.members (t.members.map Json.writtenMember))
      = some (.str formatVersion, .int t.revision, .int t.start) := by
  have ⟨⟨_, version⟩, numbers⟩ := List.forall_mem_cons.1 flat
  have ⟨⟨_, revision⟩, numbers⟩ := List.forall_mem_cons.1 numbers
  have ⟨⟨_, start⟩, _⟩ := List.forall_mem_cons.1 numbers
  have first : single? "v" (t.members.map writtenValue) = some (.str formatVersion) :=
    single?_written version rfl
  have second : single? "rv" (t.members.map writtenValue) = some (.int t.revision) :=
    single?_written revision rfl
  have third : single? "start" (t.members.map writtenValue) = some (.int t.start) :=
    single?_written start rfl
  simp only [parts?, mapM_named? flat, first, second, third, Option.bind_eq_bind,
    Option.bind_some, Option.pure_def]

theorem ofOutline?_of_parts {outline : Json.Outline} {version revision start : Json} {word : String}
    {t : ContinueToken} (parts : parts? outline = some (version, revision, start))
    (text : version.text? = some word)
    (first : Json.natBelow? numberLimit revision = some t.revision)
    (second : Json.natBelow? numberLimit start = some t.start) :
    ofOutline? outline = some (word, t) := by
  simp only [ofOutline?, parts, text, first, second, Option.bind_eq_bind, Option.bind_some,
    Option.pure_def]

theorem ofOutline?_written {t : ContinueToken} (revision : t.revision < numberLimit)
    (start : t.start < numberLimit) :
    ofOutline? (.members (t.members.map Json.writtenMember)) = some (formatVersion, t) :=
  ofOutline?_of_parts (parts?_written (flat_members revision start)) rfl
    (Json.natBelow?_eq_some.2 ⟨rfl, revision⟩) (Json.natBelow?_eq_some.2 ⟨rfl, start⟩)

/-- Reading a token gives what was written into it. -/
theorem decode_encode {t : ContinueToken} (revision : t.revision < numberLimit)
    (start : t.start < numberLimit) : decode (encode t) = .ok t := by
  have outline : Json.outline? t.toJson.compact.toUTF8.toList
      = some (.members (t.members.map Json.writtenMember)) :=
    Json.outline?_compact (List.cons_ne_nil _ _) (flat_members revision start)
  simp only [decode, encode, Text.Base64.decode_encode, outline, Option.bind_some,
    ofOutline?_written revision start, if_true]

example : encode ⟨6, 2⟩ = "eyJ2IjoibWV0YS5rOHMuaW8vdjEiLCJydiI6Niwic3RhcnQiOjJ9" := by
  decide +kernel

theorem encode_ne_empty {t : ContinueToken} (revision : t.revision < numberLimit)
    (start : t.start < numberLimit) : encode t ≠ "" := by
  intro empty
  have read := decode_encode revision start
  rw [empty] at read
  have refused : (decode "").isOk = false := by decide +kernel
  rw [read] at refused
  cases refused

end ContinueToken

end FleetRegistry
