import FleetRegistry.Name.Rule
import FleetRegistry.Proofs.Text.Cuts

/-!
The words that names are made of: labels and subdomains of the domain name system, the parts of
qualified names, label values. A word is one character, or has one at each end, and a check finds
nothing wrong exactly with the words of its kind that are short enough. All characters of names are
of one byte.
-/
namespace FleetRegistry.Name

open Text

variable {s : List Char}

/-! ## Words -/

section

variable {inner outer : Char → Bool}

theorem isWord_iff (within : ∀ c, outer c = true → inner c = true) :
    isWord inner outer s = true ↔ ∃ c, outer c = true ∧
      (s = [c] ∨ ∃ middle d, outer d = true ∧ (∀ x ∈ middle, inner x = true)
        ∧ s = c :: middle ++ [d]) := by
  unfold isWord
  simp only [Bool.and_eq_true, List.all_eq_true, Option.any_eq_true]
  constructor
  · rintro ⟨⟨chars, c, first, starts⟩, d, last, ends⟩
    obtain ⟨rest, rfl⟩ := List.head?_eq_some_iff.1 first
    refine ⟨c, starts, ?_⟩
    rcases List.eq_nil_or_concat rest with rfl | ⟨middle, x, rfl⟩
    · exact .inl rfl
    · rw [List.concat_eq_append, ← List.cons_append, List.getLast?_concat] at last
      obtain rfl := Option.some.inj last
      refine .inr ⟨middle, x, ends, fun y mem => chars y ?_, by simp⟩
      simp [mem]
  · rintro ⟨c, starts, rfl | ⟨middle, d, ends, chars, rfl⟩⟩
    · simp [starts, within c starts]
    · refine ⟨⟨?_, c, rfl, starts⟩, d, List.getLast?_concat, ends⟩
      intro x mem
      simp only [List.cons_append, List.mem_cons, List.mem_append, List.not_mem_nil,
        or_false] at mem
      rcases mem with rfl | mem | rfl
      · exact within x starts
      · exact chars x mem
      · exact within x ends

theorem chars_of_isWord (word : isWord inner outer s = true) :
    s ≠ [] ∧ ∀ c ∈ s, inner c = true := by
  unfold isWord at word
  simp only [Bool.and_eq_true, List.all_eq_true] at word
  refine ⟨?_, word.1.1⟩
  rintro rfl
  simp at word

end

/-! ## Characters -/

def isKeyChar (c : Char) : Bool := isPartChar c || c = '/'

theorem labelChar_of_lowerAlnum {c : Char} (outer : isLowerAlnum c = true) :
    isLabelChar c = true := by
  rw [isLabelChar, outer, Bool.true_or]

theorem partChar_of_alphanum {c : Char} (outer : c.isAlphanum = true) : isPartChar c = true := by
  rw [isPartChar, outer, Bool.true_or, Bool.true_or, Bool.true_or]

theorem partChar_of_labelChar {c : Char} (label : isLabelChar c = true) : isPartChar c = true := by
  unfold isLabelChar isLowerAlnum at label
  change (((c.isUpper || c.isLower) || c.isDigit) || c = '-' || c = '_' || c = '.') = true
  simp only [Bool.or_eq_true] at label ⊢
  rcases label with (lower | digit) | hyphen
  · simp [lower]
  · simp [digit]
  · simp [hyphen]

theorem keyChar_of_partChar {c : Char} (part : isPartChar c = true) : isKeyChar c = true := by
  rw [isKeyChar, part, Bool.true_or]

theorem range_of_alphanum {c : Char} (alphanum : c.isAlphanum = true) :
    48 ≤ c.toNat ∧ c.toNat ≤ 122 := by
  change ((decide (c.val ≥ 65 ∧ c.val ≤ 90) || (decide (c.val ≥ 97) && decide (c.val ≤ 122)))
    || (decide (c.val ≥ 48) && decide (c.val ≤ 57))) = true at alphanum
  simp only [Bool.or_eq_true, Bool.and_eq_true, decide_eq_true_eq, UInt32.le_iff_toNat_le,
    ge_iff_le] at alphanum
  change ((65 ≤ c.toNat ∧ c.toNat ≤ 90) ∨ (97 ≤ c.toNat ∧ c.toNat ≤ 122))
    ∨ (48 ≤ c.toNat ∧ c.toNat ≤ 57) at alphanum
  omega

theorem range_of_keyChar {c : Char} (key : isKeyChar c = true) :
    0x2d ≤ c.toNat ∧ c.toNat ≤ 0x7a := by
  simp only [isKeyChar, isPartChar, Bool.or_eq_true, decide_eq_true_eq] at key
  rcases key with (((alphanum | rfl) | rfl) | rfl) | rfl
  · have := range_of_alphanum alphanum
    omega
  all_goals decide

theorem slash_not_mem_of_partChars (chars : ∀ c ∈ s, isPartChar c = true) : '/' ∉ s :=
  fun mem => absurd (chars '/' mem) (by decide)

/-! ## Labels and subdomains -/

theorem isLabel_iff : isLabel s = true ↔ ∃ c, isLowerAlnum c = true ∧
    (s = [c] ∨ ∃ middle d, isLowerAlnum d = true ∧ (∀ x ∈ middle, isLabelChar x = true)
      ∧ s = c :: middle ++ [d]) :=
  isWord_iff fun _ => labelChar_of_lowerAlnum

theorem dot_not_mem_of_isLabel (label : isLabel s = true) : '.' ∉ s :=
  fun mem => absurd ((chars_of_isWord label).2 '.' mem) (by decide)

theorem isSubdomain_iff : isSubdomain s = true ↔
    ∃ (first : List Char) (others : List (List Char)), isLabel first = true
      ∧ (∀ label ∈ others, isLabel label = true) ∧ s = first ++ others.flatMap ('.' :: ·) := by
  unfold isSubdomain
  rw [List.all_eq_true]
  constructor
  · intro all
    obtain ⟨first, others, eq⟩ := List.exists_cons_of_ne_nil (pieces_ne_nil '.' s)
    have ⟨label, labels⟩ := List.forall_mem_cons.1 (eq ▸ all)
    refine ⟨first, others, label, labels, ?_⟩
    rw [← intercalate_eq_append_flatMap, ← eq, intercalate_pieces]
  · rintro ⟨first, others, label, labels, rfl⟩
    have all : ∀ piece ∈ first :: others, isLabel piece = true :=
      List.forall_mem_cons.2 ⟨label, labels⟩
    -- Behind a dot of its own, the first label comes apart like the others.
    have apart := pieces_flatMap fun piece mem => dot_not_mem_of_isLabel (all piece mem)
    rw [List.flatMap_cons, List.cons_append, pieces, if_pos rfl] at apart
    rwa [(List.cons.inj apart).2]

theorem isSubdomain_of_isLabel (label : isLabel s = true) : isSubdomain s = true :=
  isSubdomain_iff.2 ⟨s, [], label, by simp, by simp⟩

theorem getLast?_of_isSubdomain (subdomain : isSubdomain s = true) :
    ∃ c, s.getLast? = some c ∧ isLowerAlnum c = true := by
  have last {label : List Char} (sound : isLabel label = true) (front : List Char) :
      ∃ c, (front ++ label).getLast? = some c ∧ isLowerAlnum c = true := by
    obtain ⟨c, outer, rfl | ⟨middle, d, outer', -, rfl⟩⟩ := isLabel_iff.1 sound
    · exact ⟨c, List.getLast?_concat, outer⟩
    · rw [← List.append_assoc]
      exact ⟨d, List.getLast?_concat, outer'⟩
  obtain ⟨first, others, label, labels, rfl⟩ := isSubdomain_iff.1 subdomain
  rcases List.eq_nil_or_concat others with rfl | ⟨init, final, rfl⟩
  · simpa using last label []
  · have := last (labels final (by simp)) (first ++ init.flatMap ('.' :: ·) ++ ['.'])
    simpa using this

theorem partChars_of_isSubdomain (subdomain : isSubdomain s = true) :
    ∀ c ∈ s, isPartChar c = true := by
  intro c mem
  rw [← intercalate_pieces '.' s] at mem
  rcases mem_intercalate mem with dot | ⟨piece, piece_mem, mem⟩
  · rw [List.mem_singleton.1 dot]
    decide
  · have label : isLabel piece = true := List.all_eq_true.1 subdomain piece piece_mem
    exact partChar_of_labelChar ((chars_of_isWord label).2 c mem)

/-! ## Bytes -/

theorem byteLength_eq (s : List Char) : byteLength s = (String.ofList s).utf8ByteSize := by
  induction s with
  | nil => rfl
  | cons c rest ih =>
    rw [byteLength, List.foldr_cons, ← byteLength, ih, String.ofList_cons,
      String.utf8ByteSize_append, String.utf8ByteSize_singleton]

theorem byteLength_toList (text : String) : byteLength text.toList = text.utf8ByteSize := by
  rw [byteLength_eq, String.ofList_toList]

theorem utf8Size_of_partChar {c : Char} (part : isPartChar c = true) : c.utf8Size = 1 := by
  rw [Char.utf8Size_eq_one_iff]
  show c.val.toNat ≤ 127
  exact Nat.le_trans (range_of_keyChar (keyChar_of_partChar part)).2 (by decide)

theorem byteLength_of_isSubdomain (subdomain : isSubdomain s = true) : byteLength s = s.length := by
  have chars := partChars_of_isSubdomain subdomain
  clear subdomain
  induction s with
  | nil => rfl
  | cons c s ih =>
    have ⟨first, rest⟩ := List.forall_mem_cons.1 chars
    rw [byteLength, List.foldr_cons, ← byteLength, ih rest, utf8Size_of_partChar first,
      List.length_cons, Nat.add_comm]

/-! ## What is wrong with nothing -/

theorem labelFaults_eq_nil :
    labelFaults s = [] ↔ byteLength s ≤ labelLimit ∧ isLabel s = true := by
  simp [labelFaults]

theorem subdomainFaults_eq_nil :
    subdomainFaults s = [] ↔ byteLength s ≤ subdomainLimit ∧ isSubdomain s = true := by
  simp [subdomainFaults]

theorem partFaults_eq_nil : partFaults s = [] ↔ byteLength s ≤ partLimit ∧ isPart s = true := by
  simp [partFaults]

theorem valueFaults_eq_nil : valueFaults s = [] ↔ s = [] ∨ partFaults s = [] := by
  cases s with
  | nil => exact iff_of_true rfl (.inl rfl)
  | cons c rest => simp [valueFaults, partFaults, valueLimit, partLimit]

theorem subdomainFaults_nil : subdomainFaults [] ≠ [] := by decide

theorem partChars_of_partFaults (sound : partFaults s = []) :
    s ≠ [] ∧ ∀ c ∈ s, isPartChar c = true :=
  chars_of_isWord (partFaults_eq_nil.1 sound).2

theorem qualifiedFaults_eq_nil : qualifiedFaults s = [] ↔ partFaults s = []
    ∨ ∃ domain name, s = domain ++ '/' :: name ∧ subdomainFaults domain = []
      ∧ partFaults name = [] := by
  have prefixed (domain : List Char) :
      (if domain.isEmpty then [Fault.emptyPrefix] else (subdomainFaults domain).map .inPrefix) = []
        ↔ subdomainFaults domain = [] := by
    cases domain with
    | nil => exact iff_of_false nofun subdomainFaults_nil
    | cons c rest => simp
  have named (name : List Char) :
      (if name.contains '/' then [Fault.extraSlash] else partFaults name) = []
        ↔ partFaults name = [] := by
    split
    next slash =>
      refine iff_of_false nofun fun sound => ?_
      exact slash_not_mem_of_partChars (partChars_of_partFaults sound).2
        (List.contains_iff_mem.1 slash)
    next => exact .rfl
  unfold qualifiedFaults
  split
  next domain name cut =>
    rw [List.append_eq_nil_iff, prefixed, named]
    obtain ⟨rfl, whole⟩ := cutFirst_eq_some.1 cut
    constructor
    · rintro ⟨front, back⟩
      exact .inr ⟨domain, name, rfl, front, back⟩
    · rintro (part | ⟨domain', name', eq, front, back⟩)
      · refine absurd ?_ (slash_not_mem_of_partChars (partChars_of_partFaults part).2)
        simp
      · have whole' : '/' ∉ domain' := slash_not_mem_of_partChars
          (partChars_of_isSubdomain (subdomainFaults_eq_nil.1 front).2)
        have same := (cutFirst_append whole name).symm.trans
          (eq ▸ cutFirst_append whole' name')
        cases same
        exact ⟨front, back⟩
  next uncut =>
    refine (or_iff_left ?_).symm
    rintro ⟨domain, name, rfl, -, -⟩
    exact cutFirst_eq_none.1 uncut (by simp)

theorem key_of_qualifiedFaults (sound : qualifiedFaults s = []) :
    s ≠ [] ∧ ∀ c ∈ s, isKeyChar c = true := by
  rcases qualifiedFaults_eq_nil.1 sound with part | ⟨domain, name, rfl, front, back⟩
  · have ⟨named, chars⟩ := partChars_of_partFaults part
    exact ⟨named, fun c mem => keyChar_of_partChar (chars c mem)⟩
  · have front_chars := partChars_of_isSubdomain (subdomainFaults_eq_nil.1 front).2
    have back_chars := (partChars_of_partFaults back).2
    refine ⟨by simp, List.forall_mem_append.2 ⟨?_, List.forall_mem_cons.2 ⟨by decide, ?_⟩⟩⟩
    · exact fun c mem => keyChar_of_partChar (front_chars c mem)
    · exact fun c mem => keyChar_of_partChar (back_chars c mem)

theorem chars_of_valueFaults (sound : valueFaults s = []) : ∀ c ∈ s, isKeyChar c = true := by
  rcases valueFaults_eq_nil.1 sound with rfl | part
  · exact List.forall_mem_nil _
  · exact fun c mem => keyChar_of_partChar ((partChars_of_partFaults part).2 c mem)

end FleetRegistry.Name
