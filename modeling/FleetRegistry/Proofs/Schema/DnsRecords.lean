import FleetRegistry.DnsRecord.Rules
import FleetRegistry.Proofs.Name.Languages

/-!
The rules for records beside their published schema. Both say what a federation, a domain and a
lifetime may be, and what the rules accept the schema accepts too, except for two things: a domain
with more than one dot at its end, and a lifetime above the limit that only the schema has.
-/
namespace FleetRegistry

/-! ## Patterns -/

namespace Schema

open Pattern Name

variable {s : List Char}

theorem holds_suffixPattern :
    suffixPattern.holds s = true ↔ ∃ t, isSubdomain t = true ∧ (s = t ∨ s = t ++ ['.']) := by
  simp only [holds_iff, suffixPattern, describes_followedBy, describes_labelPattern,
    describes_moreLabels, describes_optional, describes_char, isSubdomain_iff]
  constructor
  · rintro ⟨first, _, label, ⟨_, _, ⟨others, labels, rfl⟩, rfl | rfl, rfl⟩, rfl⟩
    · exact ⟨_, ⟨first, others, label, labels, rfl⟩, .inl (by simp)⟩
    · exact ⟨_, ⟨first, others, label, labels, rfl⟩, .inr (by simp)⟩
  · rintro ⟨_, ⟨first, others, label, labels, rfl⟩, rfl | rfl⟩
    · exact ⟨first, _, label, ⟨_, [], ⟨others, labels, rfl⟩, .inl rfl, rfl⟩, by simp⟩
    · exact ⟨first, _, label, ⟨_, ['.'], ⟨others, labels, rfl⟩, .inr rfl, rfl⟩, by simp⟩

end Schema

/-! ## Records -/

namespace DnsRecordSpec

open Schema Name

theorem eq_trimDots_append (suffix : String) :
    ∃ n, suffix.toList = trimDots suffix ++ List.replicate n '.' := by
  let dots := suffix.toList.rtakeWhile (· = '.')
  have whole : trimDots suffix ++ dots = suffix.toList := List.rdropWhile_append_rtakeWhile
  have only : ∀ c ∈ dots, c = '.' := fun c mem => by simpa using List.mem_rtakeWhile_imp mem
  exact ⟨dots.length, by rw [← List.eq_replicate_of_mem only, whole]⟩

theorem holds_of_trimmed {suffix : String} (subdomain : isSubdomain (trimDots suffix) = true) :
    suffixPattern.holds suffix.toList = true ↔ ¬ ['.', '.'] <:+ suffix.toList := by
  rw [holds_suffixPattern]
  constructor
  · rintro ⟨t, sound, shape⟩ ⟨front, eq⟩
    obtain ⟨c, last, outer⟩ := getLast?_of_isSubdomain sound
    -- In front of one dot at most stands the end of a label, which is no dot.
    have dot : t.getLast? = some '.' := by
      rcases shape with same | dotted
      · rw [← same, ← eq]
        simp
      · have front_eq : t = front ++ ['.'] := by
          rw [dotted, List.append_cons] at eq
          exact (List.append_inj_left' eq rfl).symm
        rw [front_eq, List.getLast?_concat]
    rw [dot, Option.some.injEq] at last
    subst last
    exact absurd outer (by decide)
  · intro few
    obtain ⟨n, eq⟩ := eq_trimDots_append suffix
    match n, eq with
    | 0, eq => exact ⟨_, subdomain, .inl (by simpa using eq)⟩
    | 1, eq => exact ⟨_, subdomain, .inr eq⟩
    | n + 2, eq =>
      refine absurd ⟨trimDots suffix ++ List.replicate n '.', ?_⟩ few
      rw [eq, List.replicate_add, List.append_assoc]
      rfl

/-- What the rules say of a spec without violations. -/
structure Sound (s : DnsRecordSpec) : Prop where
  federated : s.federationName ≠ ""
  subdomain : ∀ suffix, s.dnsSuffix = some suffix → isSubdomain (trimDots suffix) = true
  lasting : ∀ ttl, s.recordTtl = some ttl → 0 ≤ ttl

theorem sound_of_errors {s : DnsRecordSpec} {path : FieldPath} (none : s.errors path = []) :
    s.Sound := by
  unfold errors at none
  simp only [List.append_eq_nil_iff] at none
  obtain ⟨⟨federation, domain⟩, lifetime⟩ := none
  refine ⟨?_, fun suffix given => ?_, fun ttl given => ?_⟩
  · rintro empty
    simp [empty] at federation
  · rw [given] at domain
    have faults : subdomainFaults (trimDots suffix) = [] := List.map_eq_nil_iff.1 domain
    by_contra broken
    simp [subdomainFaults, broken] at faults
  · rw [given] at lifetime
    by_contra negative
    simp [Int64.not_le.1 negative] at lifetime

def longestLifetime : Int64 := 2147483647

theorem accepts_toJson (s : DnsRecordSpec) :
    (Schema.ofSpec .dnsRecord).accepts s.toJson = true
      ↔ 1 ≤ s.federationName.length
        ∧ (∀ suffix, s.dnsSuffix = some suffix → suffixPattern.holds suffix.toList = true)
        ∧ ∀ ttl, s.recordTtl = some ttl → 0 ≤ ttl ∧ ttl ≤ longestLifetime := by
  obtain ⟨federation, suffix, ttl⟩ := s
  have limit : longestLifetime.toInt = 2147483647 := by decide
  -- The descriptions of the fields are joined from parts, and need not be put together.
  cases suffix <;> cases ttl <;>
    simp [Schema.ofSpec, dnsRecordSpec, toJson, Json.ofFields, Json.ofInt64, accepts,
      acceptsProperties, Json.Members.has, Json.Members.find?, Int64.le_iff_toInt_le, limit,
      and_comm, and_left_comm, and_assoc, -String.reduceAppend]

/-- What the rules accept the schema accepts, except for domains with more than one dot at the end
and for lifetimes above its limit. -/
theorem fits_schema_iff {s : DnsRecordSpec} {path : FieldPath} (accepted : s.errors path = []) :
    1 ≤ s.federationName.length
      ∧ (∀ suffix, s.dnsSuffix = some suffix →
        (suffixPattern.holds suffix.toList = true ↔ ¬ ['.', '.'] <:+ suffix.toList))
      ∧ (∀ ttl, s.recordTtl = some ttl → 0 ≤ ttl)
      ∧ ((Schema.ofSpec .dnsRecord).accepts s.toJson = true
        ↔ (∀ suffix, s.dnsSuffix = some suffix → ¬ ['.', '.'] <:+ suffix.toList)
          ∧ ∀ ttl, s.recordTtl = some ttl → ttl ≤ longestLifetime) := by
  have sound := sound_of_errors accepted
  have named : 1 ≤ s.federationName.length := by
    rw [Nat.one_le_iff_ne_zero, ← String.length_toList, Ne, List.length_eq_zero_iff,
      String.toList_eq_nil_iff]
    exact sound.federated
  have described (suffix) (given : s.dnsSuffix = some suffix) :=
    holds_of_trimmed (sound.subdomain suffix given)
  refine ⟨named, described, sound.lasting, ?_⟩
  rw [accepts_toJson, and_iff_right named]
  exact and_congr (forall₂_congr described)
    (forall₂_congr fun ttl given => and_iff_right (sound.lasting ttl given))

theorem fits_schema_iff_longest :
    let s : DnsRecordSpec := ⟨"galactic", some "example.com.", some longestLifetime⟩
    s.errors (.ofField "spec") = [] ∧ (Schema.ofSpec .dnsRecord).accepts s.toJson = true := by
  intro s
  have accepted : s.errors (.ofField "spec") = [] := by decide +kernel
  refine ⟨accepted, (fits_schema_iff accepted).2.2.2.2 ⟨?_, ?_⟩⟩
  · rintro _ ⟨⟩
    decide
  · rintro _ ⟨⟩
    decide

/-- The rules drop every dot at the end of a domain, and have no longest lifetime. -/
theorem accepted_beyond_schema :
    let dotted : DnsRecordSpec := ⟨"galactic", some "example.com..", none⟩
    let lasting : DnsRecordSpec := ⟨"galactic", none, some (longestLifetime + 1)⟩
    let both : DnsRecordSpec := ⟨"galactic", some "example.com..", some (longestLifetime + 1)⟩
    ∀ s ∈ [dotted, lasting, both],
      s.errors (.ofField "spec") = [] ∧ (Schema.ofSpec .dnsRecord).accepts s.toJson = false := by
  decide +kernel

end DnsRecordSpec

end FleetRegistry
