import FleetRegistry.Proofs.Name.Words
import FleetRegistry.Proofs.Schema.Patterns
import FleetRegistry.Schema.Definition

/-!
The languages of names. Each kind of name is described by a regular pattern and a limit of its size
in bytes, and its check accepts what they describe and nothing else.
-/
namespace FleetRegistry

/-! ## Patterns for words -/

namespace Schema

open Pattern Name

variable {s : List Char}

theorem inRanges_single (c d : Char) : inRanges [⟨d, d⟩] c = decide (c = d) := by
  simp only [inRanges, List.any_cons, List.any_nil, Bool.or_false]
  rw [← Bool.decide_and, decide_eq_decide, eq_comm]
  exact antisymm_iff

theorem inRanges_append (ranges more : List CharRange) (c : Char) :
    inRanges (ranges ++ more) c = (inRanges ranges c || inRanges more c) :=
  List.any_append

theorem describes_repeated_oneOf {ranges : List CharRange} :
    Describes (.repeated (.oneOf ranges)) s ↔ ∀ c ∈ s, inRanges ranges c = true := by
  simp only [describes_repeated, describes_oneOf]
  constructor
  · rintro ⟨parts, all, rfl⟩ c mem
    obtain ⟨part, here, mem⟩ := List.mem_flatten.1 mem
    obtain ⟨d, inside, rfl⟩ := all part here
    exact List.mem_singleton.1 mem ▸ inside
  · intro all
    refine ⟨s.map ([·]), ?_, (List.flatMap_singleton' s).symm⟩
    rw [List.forall_mem_map]
    exact fun c mem => ⟨c, all c mem, rfl⟩

/-- One character of the outer ranges, or two of them with any of the inner ones between. -/
def wordPattern (inner outer : List CharRange) : Pattern :=
  .followedBy (.oneOf outer) (.optional (.followedBy (.repeated (.oneOf inner)) (.oneOf outer)))

theorem describes_wordPattern {inner outer : List CharRange}
    (within : ∀ c, inRanges outer c = true → inRanges inner c = true) :
    Describes (wordPattern inner outer) s ↔ isWord (inRanges inner) (inRanges outer) s = true := by
  simp only [wordPattern, describes_followedBy, describes_optional, describes_oneOf,
    describes_repeated_oneOf, isWord_iff within]
  constructor
  · rintro ⟨_, back, ⟨c, starts, rfl⟩, rfl | ⟨middle, _, chars, ⟨d, ends, rfl⟩, rfl⟩, rfl⟩
    · exact ⟨c, starts, .inl rfl⟩
    · exact ⟨c, starts, .inr ⟨middle, d, ends, chars, rfl⟩⟩
  · rintro ⟨c, starts, rfl | ⟨middle, d, ends, chars, rfl⟩⟩
    · exact ⟨[c], [], ⟨c, starts, rfl⟩, .inl rfl, rfl⟩
    · exact ⟨[c], middle ++ [d], ⟨c, starts, rfl⟩, .inr ⟨middle, [d], chars, ⟨d, ends, rfl⟩, rfl⟩,
        rfl⟩

/-! ## Labels and subdomains -/

theorem inRanges_labelEnds : inRanges [⟨'a', 'z'⟩, ⟨'0', '9'⟩] = isLowerAlnum := by
  funext c
  simp only [inRanges, List.any_cons, List.any_nil, Bool.or_false]
  rfl

theorem inRanges_labelChars :
    inRanges [⟨'-', '-'⟩, ⟨'a', 'z'⟩, ⟨'0', '9'⟩] = isLabelChar := by
  funext c
  rw [← List.singleton_append, inRanges_append, inRanges_single, inRanges_labelEnds, Bool.or_comm]
  rfl

example : labelPattern.text = "[a-z0-9]([-a-z0-9]*[a-z0-9])?".toList := by decide

theorem describes_labelPattern : Describes labelPattern s ↔ isLabel s = true := by
  have within (c : Char) : inRanges [⟨'a', 'z'⟩, ⟨'0', '9'⟩] c = true →
      inRanges [⟨'-', '-'⟩, ⟨'a', 'z'⟩, ⟨'0', '9'⟩] c = true := by
    rw [inRanges_labelEnds, inRanges_labelChars]
    exact labelChar_of_lowerAlnum
  have words := describes_wordPattern within (s := s)
  rwa [inRanges_labelEnds, inRanges_labelChars] at words

theorem describes_moreLabels :
    Describes (.repeated (.followedBy (.char '.') labelPattern)) s
      ↔ ∃ labels : List (List Char),
        (∀ label ∈ labels, isLabel label = true) ∧ s = labels.flatMap ('.' :: ·) := by
  simp only [describes_repeated, describes_followedBy, describes_char, describes_labelPattern]
  constructor
  · rintro ⟨parts, all, rfl⟩
    refine ⟨parts.map List.tail, ?_, ?_⟩
    · rw [List.forall_mem_map]
      intro part mem
      obtain ⟨_, label, rfl, sound, rfl⟩ := all part mem
      exact sound
    · have dotted : parts.map (fun part => '.' :: part.tail) = parts := by
        refine (List.map_congr_left fun part mem => ?_).trans (List.map_id parts)
        obtain ⟨_, label, rfl, -, rfl⟩ := all part mem
        rfl
      rw [List.flatMap_map, List.flatMap_def, dotted]
  · rintro ⟨labels, all, rfl⟩
    refine ⟨labels.map ('.' :: ·), ?_, rfl⟩
    rw [List.forall_mem_map]
    exact fun label mem => ⟨['.'], label, rfl, all label mem, rfl⟩

def subdomainPattern : Pattern :=
  .followedBy labelPattern (.repeated (.followedBy (.char '.') labelPattern))

theorem describes_subdomainPattern : Describes subdomainPattern s ↔ isSubdomain s = true := by
  simp only [subdomainPattern, describes_followedBy, describes_labelPattern, describes_moreLabels,
    isSubdomain_iff]
  constructor
  · rintro ⟨first, _, label, ⟨others, labels, rfl⟩, rfl⟩
    exact ⟨first, others, label, labels, rfl⟩
  · rintro ⟨first, others, label, labels, rfl⟩
    exact ⟨first, _, label, ⟨others, labels, rfl⟩, rfl⟩

/-! ## Parts of qualified names, and label values -/

def partEnds : List CharRange := [⟨'A', 'Z'⟩, ⟨'a', 'z'⟩, ⟨'0', '9'⟩]

def partChars : List CharRange := [⟨'-', '-'⟩] ++ partEnds ++ [⟨'_', '_'⟩, ⟨'.', '.'⟩]

def partPattern : Pattern := wordPattern partChars partEnds

example : partPattern.text = "[A-Za-z0-9]([-A-Za-z0-9_.]*[A-Za-z0-9])?".toList := by decide

theorem inRanges_partEnds : inRanges partEnds = Char.isAlphanum := by
  funext c
  have capital : inRanges [⟨'A', 'Z'⟩] c = c.isUpper := by
    simp only [inRanges, List.any_cons, List.any_nil, Bool.or_false]
    rw [← Bool.decide_and]
    rfl
  rw [partEnds, ← List.singleton_append, inRanges_append, inRanges_labelEnds, capital, isLowerAlnum,
    ← Bool.or_assoc]
  rfl

theorem inRanges_partChars : inRanges partChars = isPartChar := by
  funext c
  have marks : inRanges [⟨'_', '_'⟩, ⟨'.', '.'⟩] c = (decide (c = '_') || decide (c = '.')) := by
    rw [← List.singleton_append, inRanges_append, inRanges_single, inRanges_single]
  rw [partChars, inRanges_append, inRanges_append, inRanges_single, inRanges_partEnds, marks,
    isPartChar, Bool.or_comm (decide (c = '-')), Bool.or_assoc _ (decide (c = '_'))]

theorem describes_partPattern : Describes partPattern s ↔ isPart s = true := by
  have within (c : Char) : inRanges partEnds c = true → inRanges partChars c = true := by
    rw [inRanges_partEnds, inRanges_partChars]
    exact partChar_of_alphanum
  have words := describes_wordPattern within (s := s)
  rwa [inRanges_partEnds, inRanges_partChars] at words

end Schema

/-! ## Names -/

namespace Name

open Schema

def IsDescribed (pattern : Pattern) (limit : Nat) (text : String) : Prop :=
  text.utf8ByteSize ≤ limit ∧ pattern.Describes text.toList

variable {text : String}

theorem labelFaults_toList :
    labelFaults text.toList = [] ↔ IsDescribed labelPattern labelLimit text := by
  rw [labelFaults_eq_nil, byteLength_toList, IsDescribed, describes_labelPattern]

theorem subdomainFaults_toList :
    subdomainFaults text.toList = [] ↔ IsDescribed subdomainPattern subdomainLimit text := by
  rw [subdomainFaults_eq_nil, byteLength_toList, IsDescribed, describes_subdomainPattern]

theorem partFaults_toList :
    partFaults text.toList = [] ↔ IsDescribed partPattern partLimit text := by
  rw [partFaults_eq_nil, byteLength_toList, IsDescribed, describes_partPattern]

/-- The checks of names accept exactly the texts that their patterns describe, if those are short
enough: labels, subdomains, label values, which can be empty, and qualified names, in which a
subdomain and a slash can stand in front. -/
theorem names_as_described (text : String) :
    (labelFaults text.toList = [] ↔ IsDescribed labelPattern 63 text)
      ∧ (subdomainFaults text.toList = [] ↔ IsDescribed subdomainPattern 253 text)
      ∧ (valueFaults text.toList = [] ↔ text = "" ∨ IsDescribed partPattern 63 text)
      ∧ (qualifiedFaults text.toList = [] ↔ IsDescribed partPattern 63 text
        ∨ ∃ domain name, text = domain ++ "/" ++ name ∧ IsDescribed subdomainPattern 253 domain
          ∧ IsDescribed partPattern 63 name) := by
  refine ⟨labelFaults_toList, subdomainFaults_toList, ?_, ?_⟩
  · rw [valueFaults_eq_nil, String.toList_eq_nil_iff, partFaults_toList]
    rfl
  · rw [qualifiedFaults_eq_nil, partFaults_toList]
    refine or_congr .rfl ⟨?_, ?_⟩
    · rintro ⟨domain, name, eq, front, back⟩
      refine ⟨.ofList domain, .ofList name, ?_, subdomainFaults_toList.1 ?_,
        partFaults_toList.1 ?_⟩
      · rw [← String.toList_inj, eq]
        simp
      · rwa [String.toList_ofList]
      · rwa [String.toList_ofList]
    · rintro ⟨domain, name, rfl, front, back⟩
      exact ⟨domain.toList, name.toList, by simp, subdomainFaults_toList.2 front,
        partFaults_toList.2 back⟩

end Name

end FleetRegistry
