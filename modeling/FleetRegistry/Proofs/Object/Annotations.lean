import FleetRegistry.Object.Rules
import FleetRegistry.Proofs.Name.Words
import Mathlib.Algebra.GroupWithZero.Nat

/-!
What is let through as annotations. Keys are looked at in lower case, and there is one character
besides those of names that has a small letter among them: the Kelvin sign, whose small letter is
the k. So keys are as names are, except that they can hold Kelvin signs.
-/
namespace FleetRegistry

open Name Text

/-! ## Small letters -/

/-- The sign of the unit of temperature, which is a capital letter. -/
def kelvinSign : Char := '\u212a'

/-- The small letter of a character of names, and of the Kelvin sign. -/
def smallLetter (c : Char) : Char := if c = kelvinSign then 'k' else c.toLower

theorem forall_below {P : Char → Prop} {bound : Nat} (all : ∀ code < bound, P (Char.ofNat code))
    {c : Char} (below : c.toNat < bound) : P c := by
  have here := all c.toNat below
  rwa [Char.ofNat_toNat] at here

theorem capitalRuns_apart : ∀ run ∈ capitalRuns.toList,
    (run.first = 0x41 ∧ run.last = 0x5a) ∨ (run.first = 0x212a ∧ run.last = 0x212a)
      ∨ 0x7a < run.first ∧ 0x7a < (run.first : Int) + run.shift := by
  decide +kernel

theorem bounds_of_contains {run : CapitalRun} {code : Nat} (within : run.contains code = true) :
    run.first ≤ code ∧ code ≤ run.last := by
  simp only [CapitalRun.contains, Bool.and_eq_true, decide_eq_true_eq] at within
  exact within.1

theorem lowerChar_kelvinSign : lowerChar kelvinSign = ['k'] := by decide +kernel

theorem capital_cases {c : Char} (least : 0x41 ≤ c.toNat) (most : c.toNat ≤ 0x5a) :
    isKeyChar c = true ∧ lowerChar c = [c.toLower] :=
  forall_below (P := fun c => 0x41 ≤ c.toNat → isKeyChar c = true ∧ lowerChar c = [c.toLower])
    (by decide +kernel) (Nat.lt_succ_of_le most) least

theorem lowerChar_of_keyChar {c : Char} (key : isKeyChar c = true) :
    lowerChar c = [c.toLower] := by
  have ⟨_, most⟩ := range_of_keyChar key
  by_cases capital : 0x41 ≤ c.toNat ∧ c.toNat ≤ 0x5a
  · exact (capital_cases capital.1 capital.2).2
  · have small : c.toLower = c :=
      forall_below (P := fun c => ¬(0x41 ≤ c.toNat ∧ c.toNat ≤ 0x5a) → c.toLower = c)
        (by decide) (Nat.lt_succ_of_le most) capital
    have plain : capitalRuns.find? (·.contains c.toNat) = none := by
      rw [← Array.find?_toList, List.find?_eq_none]
      intro run mem within
      have bounds := bounds_of_contains within
      have apart := capitalRuns_apart run mem
      omega
    rw [lowerChar, if_neg, plain, small]
    rintro rfl
    exact absurd most (by decide)

theorem toNat_ofNat_cases (code : Nat) :
    (Char.ofNat code).toNat = code ∨ (Char.ofNat code).toNat = 0 := by
  by_cases valid : code.isValidChar
  · rw [Char.ofNat, dif_pos valid]
    exact .inl rfl
  · rw [Char.ofNat, dif_neg valid]
    exact .inr rfl

theorem keyChar_of_lowerChar {c : Char} (small : ∀ d ∈ lowerChar c, isKeyChar d = true) :
    isKeyChar c = true ∨ c = kelvinSign := by
  unfold lowerChar at small
  split at small
  next => exact absurd (small '\u0307' (by simp)) (by decide)
  next =>
    split at small
    next run found =>
      have within := Array.find?_some found
      have bounds := bounds_of_contains within
      have mem : run ∈ capitalRuns.toList :=
        Array.mem_toList_iff.2 (Array.mem_of_find?_eq_some found)
      rcases capitalRuns_apart run mem with ⟨first, last⟩ | ⟨first, last⟩ | apart
      · exact .inl (capital_cases (by omega) (by omega)).1
      · right
        rw [← Char.ofNat_toNat c, show c.toNat = 0x212a by omega]
        rfl
      · have range := range_of_keyChar (small _ (List.mem_singleton_self _))
        have code := toNat_ofNat_cases (c.toNat + run.shift).toNat
        omega
    next => exact .inl (small c (List.mem_singleton_self c))

theorem lowerChar_of_written {c : Char} (written : isKeyChar c = true ∨ c = kelvinSign) :
    lowerChar c = [smallLetter c] := by
  unfold smallLetter
  rcases written with key | rfl
  · rw [if_neg, lowerChar_of_keyChar key]
    rintro rfl
    exact absurd key (by decide)
  · exact lowerChar_kelvinSign

/-! ## Keys -/

variable {s : List Char}

/-- A key that is looked at in lower case: characters of names and Kelvin signs, with small letters
that make up a qualified name. -/
structure IsLooseKey (s : List Char) : Prop where
  chars : ∀ c ∈ s, isKeyChar c = true ∨ c = kelvinSign
  slashes : s.count '/' ≤ 1
  small : qualifiedFaults (s.map smallLetter) = []

theorem slashes_of_qualifiedFaults (sound : qualifiedFaults s = []) : s.count '/' ≤ 1 := by
  have none {part : List Char} (chars : ∀ c ∈ part, isPartChar c = true) : part.count '/' = 0 :=
    List.count_eq_zero.2 (slash_not_mem_of_partChars chars)
  rcases qualifiedFaults_eq_nil.1 sound with part | ⟨domain, name, rfl, front, back⟩
  · rw [none (partChars_of_partFaults part).2]
    exact Nat.zero_le 1
  · rw [List.count_append, List.count_cons_self,
      none (partChars_of_isSubdomain (subdomainFaults_eq_nil.1 front).2),
      none (partChars_of_partFaults back).2]

theorem slashes_le (s : List Char) : s.count '/' ≤ (s.map smallLetter).count '/' := by
  rw [List.count_eq_countP, List.count_eq_countP, List.countP_map]
  refine List.countP_mono_left fun c _ slash => ?_
  rw [eq_of_beq slash]
  decide

theorem qualifiedFaults_lowercase {key : String} :
    qualifiedFaults (lowercase key).toList = [] ↔ IsLooseKey key.toList := by
  have smalls (chars : ∀ c ∈ key.toList, isKeyChar c = true ∨ c = kelvinSign) :
      (lowercase key).toList = key.toList.map smallLetter := by
    rw [lowercase, String.toList_ofList, List.map_eq_flatMap]
    exact List.flatMap_congr fun c mem => lowerChar_of_written (chars c mem)
  constructor
  · intro sound
    have chars : ∀ c ∈ key.toList, isKeyChar c = true ∨ c = kelvinSign := by
      intro c mem
      refine keyChar_of_lowerChar fun d small => (key_of_qualifiedFaults sound).2 d ?_
      rw [lowercase, String.toList_ofList]
      exact List.mem_flatMap.2 ⟨c, mem, small⟩
    rw [smalls chars] at sound
    exact ⟨chars, Nat.le_trans (slashes_le _) (slashes_of_qualifiedFaults sound), sound⟩
  · intro loose
    rw [smalls loose.chars]
    exact loose.small

/-! ## Annotations -/

namespace ObjectMeta

theorem byteSize_eq_sum (map : StringMap) :
    byteSize map = (map.entries.map fun e => e.1.utf8ByteSize + e.2.utf8ByteSize).sum := by
  rw [byteSize, List.sum, List.foldr_map]

theorem annotationErrors_eq_nil {annotations : StringMap} {path : FieldPath} :
    annotationErrors annotations path = [] ↔
      (∀ entry ∈ annotations.entries, qualifiedFaults (lowercase entry.1).toList = [])
        ∧ byteSize annotations ≤ 262144 := by
  rw [annotationErrors, List.append_eq_nil_iff, List.flatMap_eq_nil_iff]
  refine and_congr (forall₂_congr fun entry _ => List.map_eq_nil_iff) ?_
  rw [annotationsLimit]
  split <;> simp <;> omega

/-- Annotations are accepted if all keys are loose and the bytes of all keys and values together are
within the limit. A loose key is plain unless it holds a Kelvin sign. -/
theorem annotations_accepted_iff (annotations : StringMap) (path : FieldPath) :
    annotationErrors annotations path = [] ↔
      (∀ entry ∈ annotations.entries, IsLooseKey entry.1.toList)
        ∧ (annotations.entries.map fun e => e.1.utf8ByteSize + e.2.utf8ByteSize).sum ≤ 262144 := by
  simp only [annotationErrors_eq_nil, qualifiedFaults_lowercase, byteSize_eq_sum]

/-- An annotation that is accepted under a key that is not plain. -/
theorem kelvin_sign_accepted :
    annotationErrors (.ofList [("\u212a", "")]) ⟨"metadata.annotations"⟩ = []
      ∧ ¬∀ c ∈ "\u212a".toList, isKeyChar c = true := by
  have small : qualifiedFaults (lowercase "\u212a").toList = [] := by decide +kernel
  refine ⟨annotationErrors_eq_nil.2 ⟨?_, by decide +kernel⟩, fun plain => ?_⟩
  · intro entry mem
    rwa [List.mem_singleton.1 mem]
  · exact absurd (plain kelvinSign (by decide)) (by decide)

end ObjectMeta

end FleetRegistry
