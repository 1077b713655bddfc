import FleetRegistry.Name.Cidr
import FleetRegistry.Proofs.Text.Cuts
import FleetRegistry.Proofs.Text.Digits

/-!
The languages of addresses and of address ranges. Addresses are read from the front, as much at a
time as there is; what is read so are exactly the addresses of the grammar below, in which groups
and octets stand between their separators. A range is an address, a slash and a length, and the
check of ranges accepts them, and those with a plus in front of the length.
-/
namespace FleetRegistry.Cidr

open Text

variable {s t rest : List Char}

/-! ## The grammar of addresses -/

/-- How an octet is written: as a number, without needless zeros. -/
def octetText (octet : UInt8) : List Char := Nat.toDigits 10 octet.toNat

def IsV4 (s : List Char) : Prop :=
  ∃ a b c d : UInt8, s = ['.'].intercalate [octetText a, octetText b, octetText c, octetText d]

def IsGroup (s : List Char) : Prop :=
  1 ≤ s.length ∧ s.length ≤ 4 ∧ ∀ c ∈ s, isHexDigit c = true

/-- So many groups between colons. The last two can be written as four octets, and are embedded
then. -/
inductive Run : (embedded : Bool) → Nat → List Char → Prop
  | group {s : List Char} (group : IsGroup s) : Run false 1 s
  | octets {s : List Char} (octets : IsV4 s) : Run true 2 s
  | more {embedded : Bool} {n : Nat} {s t : List Char} (group : IsGroup s)
    (later : Run embedded n t) : Run embedded (n + 1) (s ++ ':' :: t)

def Side (embedded : Bool) (n : Nat) (s : List Char) : Prop :=
  Run embedded n s ∨ embedded = false ∧ n = 0 ∧ s = []

inductive IsV6 : List Char → Prop
  | whole {embedded : Bool} {s : List Char} (run : Run embedded 8 s) : IsV6 s
  | shortened {embedded : Bool} {n m : Nat} {front back : List Char} (left : Side false n front)
    (right : Side embedded m back) (fewer : n + m ≤ 7) : IsV6 (front ++ ':' :: ':' :: back)

def IsAddress : Family → List Char → Prop
  | .v4 => IsV4
  | .v6 => IsV6

/-! ## Octets and groups -/

theorem dropChar?_eq_some {c : Char} : dropChar? c s = some rest ↔ s = c :: rest := by
  cases s with
  | nil => simp [dropChar?]
  | cons d t =>
    rw [dropChar?]
    split
    next same => simp [same]
    next other => simp [other]

theorem isDigit_of_mem_octetText {octet : UInt8} {c : Char} (mem : c ∈ octetText octet) :
    c.isDigit = true :=
  Nat.isDigit_of_mem_toDigits (by decide) (by decide) mem

theorem isOctet_iff : isOctet s = true ↔ ∃ octet, s = octetText octet := by
  constructor
  · intro octet
    unfold isOctet at octet
    split at octet
    next => exact ⟨0, rfl⟩
    next => cases octet
    next alone front =>
      simp only [Bool.and_eq_true, Option.any_eq_true, decide_eq_true_eq] at octet
      obtain ⟨-, n, read, small⟩ := octet
      obtain ⟨nonempty, digits, rfl⟩ := digits?_eq_some.1 read
      have first : s.head? ≠ some '0' := by
        intro head
        obtain ⟨rest, rfl⟩ := List.head?_eq_some_iff.1 head
        exact front rest rfl
      refine ⟨.ofNat (Nat.ofDigitChars 10 s 0), ?_⟩
      rw [octetText, UInt8.toNat_ofNat_of_lt' (Nat.lt_succ_of_le small)]
      exact (toDigits_ofDigitChars digits nonempty first).symm
  · rintro ⟨octet, rfl⟩
    have small : octet.toNat < 256 := octet.toNat_lt
    have short : (octetText octet).length ≤ 3 :=
      (Nat.length_toDigits_le_iff (by decide) (by decide)).2 (by omega)
    have read : digits? (octetText octet) = some octet.toNat := by
      rw [octetText, ← Nat.toList_repr, digits?_repr]
    unfold isOctet
    split
    next => rfl
    next rest alone eq =>
      -- A zero is in front of nothing but zero itself.
      by_cases zero : octet.toNat = 0
      · rw [octetText, zero] at eq
        exact absurd (List.cons.inj eq).2.symm alone
      · exact absurd (congrArg List.head? eq) (head?_toDigits_ne_zero zero)
    next => simp [short, read]; omega

theorem dropOctet?_eq_some :
    dropOctet? s = some rest ↔ ∃ octet, s = octetText octet ++ rest ∧ Stops Char.isDigit rest := by
  unfold dropOctet? takeDigits
  rw [List.span_eq_takeWhile_dropWhile]
  dsimp only
  constructor
  · intro read
    split at read
    next is =>
      obtain ⟨octet, eq⟩ := isOctet_iff.1 is
      obtain ⟨whole, -, stops⟩ := takeWhile_dropWhile_iff.1 ⟨eq, Option.some.inj read⟩
      exact ⟨octet, whole, stops⟩
    next => cases read
  · rintro ⟨octet, whole, stops⟩
    have ⟨front, back⟩ :=
      takeWhile_dropWhile_iff.2 ⟨whole, fun c => isDigit_of_mem_octetText, stops⟩
    rw [front, back, if_pos (isOctet_iff.2 ⟨octet, rfl⟩)]

theorem dropV4?_eq_some :
    dropV4? s = some rest ↔ ∃ address, IsV4 address ∧ s = address ++ rest
      ∧ Stops Char.isDigit rest := by
  have dot (t : List Char) : Stops Char.isDigit ('.' :: t) := stops_cons.2 (by decide)
  simp only [dropV4?, Option.bind_eq_bind, Option.bind_eq_some_iff, dropOctet?_eq_some,
    dropChar?_eq_some, IsV4]
  constructor
  · rintro ⟨_, ⟨a, rfl, -⟩, _, rfl, _, ⟨b, rfl, -⟩, _, rfl, _, ⟨c, rfl, -⟩, _, rfl, d, rfl, stops⟩
    exact ⟨_, ⟨a, b, c, d, rfl⟩, by simp, stops⟩
  · rintro ⟨_, ⟨a, b, c, d, rfl⟩, rfl, stops⟩
    exact ⟨_, ⟨a, by simp, dot _⟩, _, rfl, _, ⟨b, rfl, dot _⟩, _, rfl, _, ⟨c, rfl, dot _⟩, _, rfl,
      d, rfl, stops⟩

theorem dropGroup?_eq_some :
    dropGroup? s = some rest ↔ ∃ group, IsGroup group ∧ s = group ++ rest
      ∧ Stops isHexDigit rest := by
  have size (digits : List Char) :
      ¬(digits.isEmpty || decide (digits.length > 4)) = true
        ↔ 1 ≤ digits.length ∧ digits.length ≤ 4 := by
    cases digits <;> simp
  unfold dropGroup?
  dsimp only
  constructor
  · intro read
    split at read
    next => cases read
    next fits =>
      obtain ⟨some, few⟩ := (size _).1 fits
      obtain ⟨whole, digits, stops⟩ := takeWhile_dropWhile_iff.1 ⟨rfl, Option.some.inj read⟩
      exact ⟨_, ⟨some, few, digits⟩, whole, stops⟩
  · rintro ⟨group, ⟨some, few, digits⟩, whole, stops⟩
    have ⟨front, back⟩ := takeWhile_dropWhile_iff.2 ⟨whole, digits, stops⟩
    rw [front, back, if_neg ((size _).2 ⟨some, few⟩)]

/-! ## Characters of addresses -/

def IsAddressChar (c : Char) : Prop := isHexDigit c = true ∨ c = ':' ∨ c = '.'
  deriving Decidable

theorem hexDigit_of_digit {c : Char} (digit : c.isDigit = true) : isHexDigit c = true := by
  rw [isHexDigit, digit, Bool.true_or, Bool.true_or]

theorem IsV4.chars (v4 : IsV4 s) : ∀ c ∈ s, IsAddressChar c := by
  obtain ⟨a, b, c, d, rfl⟩ := v4
  intro x mem
  rcases mem_intercalate mem with dot | ⟨text, octet, mem⟩
  · exact .inr (.inr (List.mem_singleton.1 dot))
  · left
    simp only [List.mem_cons, List.not_mem_nil, or_false] at octet
    rcases octet with rfl | rfl | rfl | rfl <;>
      exact hexDigit_of_digit (isDigit_of_mem_octetText mem)

theorem Run.chars {embedded : Bool} {n : Nat} (run : Run embedded n s) :
    ∀ c ∈ s, IsAddressChar c := by
  induction run with
  | group group => exact fun c mem => .inl (group.2.2 c mem)
  | octets octets => exact octets.chars
  | more group _ ih =>
    refine List.forall_mem_append.2 ⟨fun c mem => .inl (group.2.2 c mem), ?_⟩
    exact List.forall_mem_cons.2 ⟨.inr (.inl rfl), ih⟩

theorem Side.chars {embedded : Bool} {n : Nat} (side : Side embedded n s) :
    ∀ c ∈ s, IsAddressChar c := by
  rcases side with run | ⟨-, -, rfl⟩
  · exact run.chars
  · exact List.forall_mem_nil _

theorem IsAddress.chars {family : Family} (address : IsAddress family s) :
    ∀ c ∈ s, IsAddressChar c := by
  cases family with
  | v4 => exact IsV4.chars address
  | v6 =>
    cases address with
    | whole run => exact run.chars
    | shortened left right =>
      refine List.forall_mem_append.2 ⟨left.chars, ?_⟩
      exact List.forall_mem_cons.2 ⟨.inr (.inl rfl),
        List.forall_mem_cons.2 ⟨.inr (.inl rfl), right.chars⟩⟩

theorem IsAddress.not_mem {family : Family} (address : IsAddress family s) {c : Char}
    (other : ¬IsAddressChar c) : c ∉ s :=
  fun mem => other (address.chars c mem)

/-! ## Reading groups -/

def behind (count : Nat) (s : List Char) : List Char := if count = 0 then s else ':' :: s

theorem start_eq_some {count : Nat} :
    (if count = 0 then some s else dropChar? ':' s) = some t ↔ s = behind count t := by
  unfold behind
  split
  next => exact Option.some_inj
  next => exact dropChar?_eq_some

theorem behind_append (count : Nat) (s t : List Char) :
    behind count s ++ t = behind count (s ++ t) := by
  unfold behind
  split <;> rfl

/-- At the end of a text, or where groups are left out. -/
inductive Ends : List Char → Prop
  | nil : Ends []
  | gap (s : List Char) : Ends (':' :: ':' :: s)

def GroupEnds (rest : List Char) : Prop := ∀ c ∈ rest.head?, c = ':'

theorem Ends.group (ends : Ends rest) : GroupEnds rest := by
  cases ends <;> simp [GroupEnds]

theorem groupEnds_colon (s : List Char) : GroupEnds (':' :: s) := by simp [GroupEnds]

theorem GroupEnds.stops (ends : GroupEnds rest) {p : Char → Bool} (colon : p ':' = false) :
    Stops p rest :=
  fun c head => ends c head ▸ colon

theorem dropV4?_group (group : IsGroup s) (ends : GroupEnds rest) :
    dropV4? (s ++ rest) = none := by
  rw [Option.eq_none_iff_forall_not_mem]
  intro after read
  obtain ⟨_, ⟨a, b, c, d, rfl⟩, eq, -⟩ := dropV4?_eq_some.1 read
  simp only [List.intercalate_cons_cons, List.append_assoc, List.singleton_append] at eq
  have digits : ∀ x ∈ octetText a, isHexDigit x = true :=
    fun x mem => hexDigit_of_digit (isDigit_of_mem_octetText mem)
  have behind_group := (takeWhile_dropWhile_iff.2 ⟨rfl, group.2.2, ends.stops rfl⟩).2
  have behind_octet := (takeWhile_dropWhile_iff.2 ⟨eq, digits, stops_cons.2 (by decide)⟩).2
  have dot := ends '.' (by rw [behind_group.symm.trans behind_octet]; rfl)
  exact absurd dot (by decide)

theorem dropGroup?_of_group (group : IsGroup s) (ends : GroupEnds rest) :
    dropGroup? (s ++ rest) = some rest :=
  dropGroup?_eq_some.2 ⟨s, group, rfl, ends.stops rfl⟩

variable {embedded : Bool} {n count room : Nat}

theorem readGroups_behind (count room : Nat) (t : List Char) :
    readGroups count (room + 1) (behind count t)
      = match if room = 0 then none else dropV4? t with
        | some rest => ⟨count + 2, true, rest⟩
        | none => match dropGroup? t with
          | some rest => readGroups (count + 1) room rest
          | none => ⟨count, false, behind count t⟩ := by
  rw [readGroups, start_eq_some.2 rfl]
  rfl

theorem readGroups_group (group : IsGroup s) (ends : GroupEnds rest) :
    readGroups count (room + 1) (behind count (s ++ rest)) = readGroups (count + 1) room rest := by
  rw [readGroups_behind, dropV4?_group group ends, ite_self, dropGroup?_of_group group ends]

theorem readGroups_ends (ends : Ends rest) (count room : Nat) :
    readGroups count room rest = ⟨count, false, rest⟩ := by
  cases room with
  | zero => rfl
  | succ room =>
    rw [readGroups]
    cases ends with
    | nil => cases count <;> cases room <;> rfl
    | gap => cases count <;> cases room <;> rfl

theorem Run.read (run : Run embedded n s) (ends : Ends rest) (fits : n ≤ room) :
    readGroups count room (behind count s ++ rest) = ⟨count + n, embedded, rest⟩ := by
  obtain ⟨more, rfl⟩ := Nat.exists_eq_add_of_le' fits
  clear fits
  rw [behind_append]
  induction run generalizing count with
  | group group => rw [readGroups_group group ends.group, readGroups_ends ends]
  | octets octets =>
    have read := dropV4?_eq_some.2 ⟨_, octets, rfl, ends.group.stops rfl⟩
    rw [readGroups_behind, if_neg (Nat.succ_ne_zero _), read]
  | @more _ n s t group _ ih =>
    rw [List.append_assoc, List.cons_append, ← Nat.add_assoc,
      readGroups_group group (groupEnds_colon _)]
    refine ih.trans ?_
    rw [Nat.add_right_comm, Nat.add_assoc]

theorem readGroups_cases {groups : Groups} (read : readGroups count (room + 1) s = groups) :
    groups = ⟨count, false, s⟩
      ∨ (room ≠ 0 ∧ ∃ address, IsV4 address ∧ s = behind count address ++ groups.rest
        ∧ groups = ⟨count + 2, true, groups.rest⟩)
      ∨ ∃ digits rest, IsGroup digits ∧ s = behind count digits ++ rest
        ∧ readGroups (count + 1) room rest = groups := by
  rw [readGroups] at read
  split at read
  next rest octets =>
    subst read
    have space : room ≠ 0 := by
      rintro rfl
      cases octets
    rw [if_neg space] at octets
    obtain ⟨t, start, dropped⟩ := Option.bind_eq_some_iff.1 octets
    obtain ⟨address, v4, rfl, -⟩ := dropV4?_eq_some.1 dropped
    refine .inr (.inl ⟨space, address, v4, ?_, rfl⟩)
    rw [start_eq_some.1 start, behind_append]
  next =>
    split at read
    next rest digits =>
      obtain ⟨t, start, dropped⟩ := Option.bind_eq_some_iff.1 digits
      obtain ⟨digits, group, rfl, -⟩ := dropGroup?_eq_some.1 dropped
      refine .inr (.inr ⟨digits, rest, group, ?_, read⟩)
      rw [start_eq_some.1 start, behind_append]
    next => exact .inl read.symm

theorem run_of_read {groups : Groups} (read : readGroups count room s = groups) :
    groups = ⟨count, false, s⟩
      ∨ ∃ n t, Run groups.embedded n t ∧ n ≤ room ∧ groups.count = count + n
        ∧ s = behind count t ++ groups.rest := by
  induction room generalizing count s with
  | zero => exact .inl read.symm
  | succ room ih =>
    rcases readGroups_cases read with stopped | ⟨space, address, v4, whole, eq⟩
      | ⟨digits, rest, group, rfl, later⟩
    · exact .inl stopped
    · rw [eq] at whole ⊢
      exact .inr ⟨2, address, .octets v4, by omega, rfl, whole⟩
    · right
      rcases ih later with rfl | ⟨n, t, run, fits, counted, rfl⟩
      · exact ⟨1, digits, .group group, by omega, rfl, rfl⟩
      · refine ⟨n + 1, digits ++ ':' :: t, .more group run, by omega, by omega, ?_⟩
        rw [← behind_append, List.append_assoc]
        rfl

/-! ## Reading addresses -/

theorem Side.read (side : Side embedded n s) (ends : Ends rest) (fits : n ≤ room) :
    readGroups 0 room (s ++ rest) = ⟨n, embedded, rest⟩ := by
  rcases side with run | ⟨rfl, rfl, rfl⟩
  · have read : readGroups 0 room (behind 0 s ++ rest) = _ := run.read ends fits
    rwa [Nat.zero_add] at read
  · exact readGroups_ends ends 0 room

theorem side_of_read {groups : Groups} (read : readGroups 0 room s = groups) :
    ∃ t, Side groups.embedded groups.count t ∧ groups.count ≤ room ∧ s = t ++ groups.rest := by
  rcases run_of_read read with rfl | ⟨n, t, run, fits, counted, whole⟩
  · exact ⟨[], .inr ⟨rfl, rfl, rfl⟩, Nat.zero_le _, rfl⟩
  · rw [Nat.zero_add] at counted
    exact ⟨t, .inl (counted ▸ run), counted ▸ fits, whole⟩

theorem dropV6?_iff : dropV6? s = some [] ↔ IsV6 s := by
  constructor
  · intro read
    obtain ⟨front, left, fits, whole⟩ := side_of_read (rfl : readGroups 0 8 s = _)
    unfold dropV6? at read
    dsimp only at read
    generalize readGroups 0 8 s = groups at read left fits whole
    split at read
    next full =>
      rw [Option.some.inj read, List.append_nil] at whole
      rcases left with run | ⟨-, none, -⟩
      · exact whole ▸ .whole (full ▸ run)
      · omega
    next more =>
      split at read
      next => cases read
      next plain =>
        split at read
        next back gap =>
          obtain ⟨back', right, fewer, eq⟩ :=
            side_of_read (rfl : readGroups 0 (7 - groups.count) back = _)
          rw [Option.some.inj read, List.append_nil] at eq
          rw [Bool.eq_false_iff.2 plain] at left
          rw [whole, gap, eq]
          exact .shortened left right (by omega)
        next => cases read
  · rintro (run | @⟨_, n, m, front, back, left, right, fewer⟩)
    · have read := (show Side _ 8 s from .inl run).read .nil (Nat.le_refl 8)
      rw [List.append_nil] at read
      simp [dropV6?, read]
    · have before := left.read (.gap back) (show n ≤ 8 by omega)
      have after := right.read .nil (show m ≤ 7 - n by omega)
      rw [List.append_nil] at after
      have few : n ≠ 8 := by omega
      simp [dropV6?, before, after, few]

theorem Run.no_octets (run : Run embedded n s) (ends : GroupEnds rest)
    (groups : embedded = false ∨ n ≠ 2) : dropV4? (s ++ rest) = none := by
  cases run with
  | group group => exact dropV4?_group group ends
  | octets => simp at groups
  | more group =>
    rw [List.append_assoc, List.cons_append]
    exact dropV4?_group group (groupEnds_colon _)

theorem IsV6.no_octets (v6 : IsV6 s) : dropV4? s = none := by
  cases v6 with
  | whole run =>
    have none := run.no_octets (show GroupEnds [] by simp [GroupEnds]) (.inr (by decide))
    rwa [List.append_nil] at none
  | shortened left =>
    rcases left with run | ⟨-, -, rfl⟩
    · exact run.no_octets (groupEnds_colon _) (.inl rfl)
    · rfl

/-- What is read as an address is one of the family, and the addresses of both are read. -/
theorem family?_eq_some {family : Family} : family? s = some family ↔ IsAddress family s := by
  have whole : dropV4? s = some [] ↔ IsV4 s := by simp [dropV4?_eq_some, stops_nil]
  unfold family?
  cases family with
  | v4 =>
    rw [IsAddress, ← whole]
    split
    next read => simp [read]
    next none => simp [none]
  | v6 =>
    rw [IsAddress, ← dropV6?_iff]
    split
    next read =>
      have not : dropV6? s ≠ some [] := by
        intro v6
        simp [(dropV6?_iff.1 v6).no_octets] at read
      simp [not]
    next => simp

example : IsAddress .v6 "::ffff:10.0.0.1".toList := family?_eq_some.1 (by decide +kernel)

/-! ## Ranges -/

/-- A number of fixed bits: some digits, with a value that the width of the addresses allows. -/
def IsLength (family : Family) (s : List Char) : Prop :=
  s ≠ [] ∧ (∀ c ∈ s, c.isDigit = true) ∧ Nat.ofDigitChars 10 s 0 ≤ family.width

/-- An address, a slash and a length, with these characters between the last two. -/
def IsRange (sign s : List Char) : Prop :=
  ∃ family address length, IsAddress family address ∧ IsLength family length
    ∧ s = address ++ '/' :: (sign ++ length)

theorem length?_fits {family : Family} :
    (length? s).any (· ≤ family.width) = true
      ↔ ∃ sign length, (sign = [] ∨ sign = ['+']) ∧ IsLength family length
        ∧ s = sign ++ length := by
  have width : family.width < 256 := by cases family <;> decide
  simp only [length?, Option.any_eq_true, unsigned?_eq_some, digits?_eq_some, decide_eq_true_eq,
    IsLength]
  constructor
  · rintro ⟨n, ⟨-, sign, length, whole, signed, some, digits, rfl⟩, fits⟩
    exact ⟨sign, length, signed, ⟨some, digits, fits⟩, whole⟩
  · rintro ⟨sign, length, signed, ⟨some, digits, fits⟩, whole⟩
    exact ⟨_, ⟨by omega, sign, length, whole, signed, some, digits, rfl⟩, fits⟩

theorem fault?_eq_none : fault? s = none ↔ ∃ sign, (sign = [] ∨ sign = ['+']) ∧ IsRange sign s := by
  constructor
  · intro accepted
    unfold fault? at accepted
    split at accepted
    next => cases accepted
    next address length cut =>
      split at accepted
      next => cases accepted
      next family read =>
        split at accepted
        next fits =>
          obtain ⟨sign, digits, signed, bits, rfl⟩ := length?_fits.1 fits
          exact ⟨sign, signed, family, address, digits, family?_eq_some.1 read, bits,
            eq_of_cutFirst cut⟩
        next => cases accepted
  · rintro ⟨sign, signed, family, address, digits, is, bits, rfl⟩
    have cut := cutFirst_append (is.not_mem (by decide) : '/' ∉ address) (sign ++ digits)
    have fits := length?_fits.2 ⟨sign, digits, signed, bits, rfl⟩
    simp only [fault?, cut, family?_eq_some.2 is, fits, if_true]

theorem IsRange.plus_iff {sign : List Char} (range : IsRange sign s) : '+' ∈ s ↔ '+' ∈ sign := by
  obtain ⟨family, address, digits, is, ⟨-, bits, -⟩, rfl⟩ := range
  have front : '+' ∉ address := is.not_mem (by decide)
  have back : '+' ∉ digits := fun mem => absurd (bits _ mem) (by decide)
  simp [front, back]

/-- The check of ranges accepts an address, a slash and a length, and the same with a plus in front
of the length; these are the ranges that it accepts without being ones. -/
theorem ranges_and_signed_ranges (s : List Char) :
    (fault? s = none ↔ IsRange [] s ∨ IsRange ['+'] s)
      ∧ (IsRange [] s ↔ fault? s = none ∧ '+' ∉ s) := by
  refine ⟨by simp [fault?_eq_none], fun range => ⟨?_, ?_⟩, ?_⟩
  · exact fault?_eq_none.2 ⟨[], .inl rfl, range⟩
  · exact fun plus => absurd (range.plus_iff.1 plus) (by decide)
  · rintro ⟨accepted, unsigned⟩
    obtain ⟨sign, rfl | rfl, range⟩ := fault?_eq_none.1 accepted
    · exact range
    · exact absurd (range.plus_iff.2 (by decide)) unsigned

/-- Texts that are accepted and are no ranges. -/
theorem signed_lengths_accepted :
    (fault? "10.0.0.0/+8".toList = none ∧ ¬IsRange [] "10.0.0.0/+8".toList)
      ∧ fault? "fd00::/+64".toList = none ∧ ¬IsRange [] "fd00::/+64".toList := by
  have none {s : List Char} (plus : '+' ∈ s) : ¬IsRange [] s :=
    fun range => absurd (range.plus_iff.1 plus) (by decide)
  exact ⟨⟨by decide +kernel, none (by decide)⟩, by decide +kernel, none (by decide)⟩

end FleetRegistry.Cidr
