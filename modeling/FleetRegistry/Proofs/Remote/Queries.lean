import FleetRegistry.Remote.Address
import Mathlib.Data.List.TakeWhile

/-!
Queries of addresses. Names and values are encoded, so that none of their characters is read as a
separator, and the query of an address has exactly the pairs that it was made of. This takes a path
that has no separator of its own, since a path stands in an address as it is given.
-/
namespace FleetRegistry

namespace Address

def separators : List Char := ['?', '#', '&']

theorem hexDigit_not_separator : ∀ n < 16, hexDigit n ∉ separators := by decide

theorem not_separator_of_mem_encodeByte {byte : UInt8} {c : Char} (mem : c ∈ encodeByte byte) :
    c ∉ separators := by
  unfold encodeByte at mem
  dsimp only at mem
  split at mem
  next itself =>
    rw [List.mem_singleton.1 mem]
    intro separates
    generalize Char.ofNat byte.toNat = c at itself separates
    simp only [separators, List.mem_cons, List.not_mem_nil, or_false] at separates
    rcases separates with rfl | rfl | rfl <;> exact absurd itself (by decide)
  next =>
    split at mem
    next =>
      rw [List.mem_singleton.1 mem]
      decide
    next =>
      have small : byte.toNat < 256 := byte.toNat_lt
      simp only [List.mem_cons, List.not_mem_nil, or_false] at mem
      rcases mem with rfl | rfl | rfl
      · decide
      · exact hexDigit_not_separator _ (by omega)
      · exact hexDigit_not_separator _ (by omega)

theorem not_separator_of_mem_encode {text : String} {c : Char} (mem : c ∈ (encode text).toList) :
    c ∉ separators := by
  rw [encode, String.toList_ofList, List.mem_flatMap] at mem
  obtain ⟨byte, -, mem⟩ := mem
  exact not_separator_of_mem_encodeByte mem

theorem not_separator_of_mem_pair {name value : String} {c : Char}
    (mem : c ∈ (pair name value).toList) : c ∉ separators := by
  rw [pair, String.toList_append, String.toList_append, List.mem_append, List.mem_append] at mem
  rcases mem with (mem | mem) | mem
  · exact not_separator_of_mem_encode mem
  · rw [show c = '=' by simpa using mem]
    decide
  · exact not_separator_of_mem_encode mem

/-- Whether a text can stand in a path without ending it. -/
def IsPlain (text : String) : Prop := '?' ∉ text.toList ∧ '#' ∉ text.toList

def queryText (fields : List (String × String)) : List Char :=
  (fields.map fun field => (pair field.1 field.2).toList).flatMap ('&' :: ·)

theorem not_separator_of_mem_queryText {fields : List (String × String)} {c : Char}
    (mem : c ∈ queryText fields) : c = '&' ∨ c ∉ separators := by
  rw [queryText, List.mem_flatMap] at mem
  obtain ⟨s, listed, mem⟩ := mem
  obtain ⟨field, -, rfl⟩ := List.mem_map.1 listed
  exact (List.mem_cons.1 mem).imp_right not_separator_of_mem_pair

theorem mem_pairs_queryText {fields : List (String × String)} {p : String} :
    p ∈ pairs (queryText fields) ↔ ∃ field ∈ fields, p = pair field.1 field.2 := by
  have whole : ∀ s ∈ fields.map fun field => (pair field.1 field.2).toList, '&' ∉ s := by
    rw [List.forall_mem_map]
    intro field _ mem
    exact not_separator_of_mem_pair mem (by decide)
  have present (field : String × String) : (pair field.1 field.2).toList ≠ [] := by
    simp [pair]
  rw [pairs, queryText, Text.pieces_flatMap whole, List.mem_mergeSort]
  simp only [List.mem_map, List.mem_filter, List.mem_cons]
  constructor
  · rintro ⟨s, ⟨rfl | ⟨field, mem, rfl⟩, given⟩, rfl⟩
    · cases given
    · exact ⟨field, mem, String.ofList_toList⟩
  · rintro ⟨field, mem, rfl⟩
    exact ⟨_, ⟨.inr ⟨field, mem, rfl⟩, by simp [present]⟩, String.ofList_toList⟩

theorem query_of_make? {path : String} {fields : List (String × String)} {address : Address}
    (made : make? path (some fields) = some address) (plain : IsPlain path) :
    address.query = pairs (queryText fields) := by
  unfold make? parse? at made
  dsimp only at made
  generalize eq : path ++ "?" ++ String.join _ = text at made
  have whole : text.toList = path.toList ++ '?' :: queryText fields := by
    rw [← eq]
    simp [queryText, String.toList_join, List.flatMap_map]
  have shown : text.toList.takeWhile (· != '#') = text.toList := by
    rw [List.takeWhile_eq_self_iff, whole]
    intro c mem
    have other : c ≠ '#' := by
      rintro rfl
      rw [List.mem_append, List.mem_cons] at mem
      rcases mem with inPath | eq | inQuery
      · exact plain.2 inPath
      · cases eq
      · rcases not_separator_of_mem_queryText inQuery with eq | plain
        · cases eq
        · exact plain (by decide)
    simpa using other
  have query : (text.toList.dropWhile (· != '?')).drop 1 = queryText fields := by
    have front : ∀ c ∈ path.toList, (c != '?') = true := by
      intro c mem
      have other : c ≠ '?' := fun eq => plain.1 (eq ▸ mem)
      simpa using other
    rw [whole, List.dropWhile_append_of_pos front]
    simp
  rw [shown, query] at made
  split at made
  next => cases made
  next =>
    split at made
    next =>
      cases made
      rfl
    next => cases made

theorem mem_query_of_make? {path : String} {fields : List (String × String)} {address : Address}
    (made : make? path (some fields) = some address) (plain : IsPlain path) {p : String} :
    p ∈ address.query ↔ ∃ field ∈ fields, p = pair field.1 field.2 := by
  rw [query_of_make? made plain, mem_pairs_queryText]

end Address

end FleetRegistry
