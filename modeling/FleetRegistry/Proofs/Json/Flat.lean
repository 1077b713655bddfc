import FleetRegistry.Json.Outline
import FleetRegistry.Json.Printer
import FleetRegistry.Proofs.Text.Bytes
import FleetRegistry.Proofs.Text.Digits

/-!
Reading what was written, for objects whose members are plain texts and natural numbers that fit
into a word: the parts of the text of such an object are the texts of its members, and each part
reads as what it was written from. Texts are plain if they are ASCII and no character of theirs is
escaped.
-/
namespace FleetRegistry.Json

/-! ## Texts -/

def IsPlain (c : Char) : Prop := 0x20 ≤ c.toNat ∧ c.toNat ≤ 127 ∧ c ≠ '"' ∧ c ≠ '\\'

instance (c : Char) : Decidable (IsPlain c) := inferInstanceAs (Decidable (_ ∧ _ ∧ _ ∧ _))

theorem plain_of_all {text : List Char} (all : text.all (fun c => decide (IsPlain c)) = true) :
    ∀ c ∈ text, IsPlain c := by
  simpa using all

theorem escapeChar_of_plain {c : Char} (h : IsPlain c) : escapeChar c = [c] := by
  obtain ⟨printed, -, quote, slash⟩ := h
  have control {d : Char} (low : d.toNat < 0x20) : c ≠ d := by
    rintro rfl
    omega
  simp only [escapeChar, quote, slash, control (d := '\n') (by decide),
    control (d := '\r') (by decide), control (d := '\t') (by decide), if_false]
  rw [if_neg (by omega), if_neg (by omega), if_neg (by omega)]

theorem quoted_of_plain {text : String} (plain : ∀ c ∈ text.toList, IsPlain c) :
    (quoted text).toList = '"' :: text.toList ++ ['"'] := by
  have escaped : text.toList.flatMap escapeChar = text.toList := by
    rw [List.flatMap_def, List.map_congr_left fun c mem => escapeChar_of_plain (plain c mem),
      ← List.flatMap_def, List.flatMap_singleton']
  rw [quoted, String.toList_ofList, escaped]

theorem readString_of_plain {text : List Char} (plain : ∀ c ∈ text, IsPlain c) (done : List Char)
    (rest : List Char) {fuel : Nat} (enough : text.length < fuel) :
    readString fuel done (text ++ '"' :: rest)
      = .ok (String.ofList (done.reverse ++ text), rest) := by
  induction text generalizing done fuel with
  | nil =>
    obtain ⟨fuel, rfl⟩ := Nat.exists_eq_succ_of_ne_zero (Nat.ne_of_gt enough)
    simp [readString]
  | cons c text ih =>
    obtain ⟨fuel, rfl⟩ := Nat.exists_eq_succ_of_ne_zero (Nat.ne_of_gt (Nat.zero_lt_of_lt enough))
    have ⟨⟨printed, _, quote, slash⟩, later⟩ := List.forall_mem_cons.1 plain
    have next := ih later (c :: done) (Nat.lt_of_succ_lt_succ enough)
    simp [readString, Nat.not_lt.2 printed, next]

theorem skipString_of_plain {text : List Char} (plain : ∀ c ∈ text, IsPlain c)
    (rest : List Char) : skipString (text ++ '"' :: rest) = some rest := by
  induction text with
  | nil => simp [skipString]
  | cons c text ih =>
    have ⟨⟨printed, _, _, slash⟩, later⟩ := List.forall_mem_cons.1 plain
    simp [skipString, Nat.not_lt.2 printed, ih later, slash]

/-! ## Numbers -/

def endsNumber (c : Char) : Bool := !(c.isDigit || c = '.' || c = 'e' || c = 'E')

theorem takeFitting_digits {digits : List Char} (all : ∀ d ∈ digits, d.isDigit = true)
    (value : Nat) (fits : Nat.ofDigitChars 10 digits value ≤ maxWord) :
    takeFitting value digits = (Nat.ofDigitChars 10 digits value, []) := by
  induction digits generalizing value with
  | nil => simp [takeFitting]
  | cons d digits ih =>
    have ⟨here, later⟩ := List.forall_mem_cons.1 all
    rw [Nat.ofDigitChars_cons, Nat.mul_comm] at fits ⊢
    have next : value * 10 + (d.toNat - '0'.toNat) ≤ maxWord :=
      Nat.le_trans (Text.le_ofDigitChars digits _) fits
    rw [takeFitting, if_pos here]
    dsimp only
    rw [if_pos next]
    exact ih later _ fits

theorem readWhole_digits {digits : List Char} (all : ∀ d ∈ digits, d.isDigit = true)
    (fits : Nat.ofDigitChars 10 digits 0 ≤ maxWord) :
    readWhole digits = (⟨Nat.ofDigitChars 10 digits 0, 0⟩, true, []) := by
  simp [readWhole, takeFitting_digits all 0 fits]

theorem readTail_nil (whole : Significand) : readTail whole [] = .ok ((whole, true), []) := by
  simp [readTail, bind, Except.bind]

theorem digit_ne {d c : Char} (digit : d.isDigit = true) (other : c.isDigit = false) : d ≠ c := by
  rintro rfl
  simp [digit] at other

theorem digits_repr (n : Nat) : ∀ d ∈ Nat.toDigits 10 n, d.isDigit = true :=
  fun _ mem => Nat.isDigit_of_mem_toDigits (by decide) (by decide) mem

theorem readNumber_repr {n : Nat} (fits : n ≤ maxWord) :
    readNumber (Nat.repr n).toList = .ok (.int n, []) := by
  rw [Nat.toList_repr]
  by_cases zero : n = 0
  · subst zero
    simp [readNumber, readWhole, takeFitting, readTail_nil, bind, Except.bind, pure, Except.pure,
      maxWord]
  · have all := digits_repr n
    have whole : readWhole (Nat.toDigits 10 n) = (⟨n, 0⟩, true, []) := by
      rw [readWhole_digits all (by simpa using fits), Nat.ofDigitChars_ten_toDigits]
    have front := Text.head?_toDigits_ne_zero zero
    obtain ⟨d, digits, eq⟩ := List.exists_cons_of_ne_nil (Nat.toDigits_ne_nil (n := n) (b := 10))
    rw [eq] at all whole front ⊢
    have digit : d.isDigit = true := all d List.mem_cons_self
    have positive : d ≠ '-' := digit_ne digit (by decide)
    have notZero : d ≠ '0' := by simpa using front
    simp [readNumber, digit, positive, notZero, whole, readTail_nil, bind, Except.bind, pure,
      Except.pure]

theorem skipDigits_digits {digits : List Char} (all : ∀ d ∈ digits, d.isDigit = true)
    (given : digits ≠ []) {c : Char} (ends : c.isDigit = false) (rest : List Char) :
    skipDigits (digits ++ c :: rest) = some (c :: rest) := by
  obtain ⟨d, digits, rfl⟩ := List.exists_cons_of_ne_nil given
  have ⟨here, later⟩ := List.forall_mem_cons.1 all
  rw [List.cons_append, skipDigits, if_pos here, List.dropWhile_append_of_pos later,
    List.dropWhile_cons_of_neg (by simp [ends])]

theorem skipWhole_repr (n : Nat) {c : Char} (ends : c.isDigit = false) (rest : List Char) :
    skipWhole (Nat.toDigits 10 n ++ c :: rest) = some (c :: rest) := by
  by_cases zero : n = 0
  · subst zero
    simp [skipWhole, ends]
  · have all := digits_repr n
    have front := Text.head?_toDigits_ne_zero zero
    have skipped := skipDigits_digits all Nat.toDigits_ne_nil ends rest
    obtain ⟨d, digits, eq⟩ := List.exists_cons_of_ne_nil (Nat.toDigits_ne_nil (n := n) (b := 10))
    rw [eq] at front skipped ⊢
    have notZero : d ≠ '0' := by simpa using front
    simpa [skipWhole, notZero] using skipped

theorem skipNumber_repr (n : Nat) {c : Char} (ends : endsNumber c = true) (rest : List Char) :
    skipNumber ((Nat.repr n).toList ++ c :: rest) = some (c :: rest) := by
  simp only [endsNumber, Bool.not_eq_true', Bool.or_eq_false_iff, decide_eq_false_iff_not] at ends
  obtain ⟨⟨⟨notDigit, point⟩, small⟩, capital⟩ := ends
  have whole := skipWhole_repr n notDigit rest
  have all := digits_repr n
  rw [Nat.toList_repr]
  obtain ⟨d, digits, eq⟩ := List.exists_cons_of_ne_nil (Nat.toDigits_ne_nil (n := n) (b := 10))
  rw [eq] at all whole ⊢
  have digit : d.isDigit = true := all d List.mem_cons_self
  have positive : d ≠ '-' := digit_ne digit (by decide)
  rw [List.cons_append] at whole ⊢
  simp [skipNumber, positive, whole, skipFraction, skipExponent, point, small, capital]

/-! ## Values -/

/-- A plain text, or a natural number that fits into a word. -/
inductive IsFlat : Json → Prop
  | text {text : String} (plain : ∀ c ∈ text.toList, IsPlain c) : IsFlat (.str text)
  | number {n : Nat} (fits : n ≤ maxWord) : IsFlat (.int n)

theorem skipGap_cons {c : Char} (printed : isGap c = false) (rest : List Char) :
    skipGap (c :: rest) = c :: rest := by
  simp [skipGap, printed]

theorem not_gap_of_digit {d : Char} (digit : d.isDigit = true) : isGap d = false := by
  simp [isGap, digit_ne digit (c := ' ') (by decide), digit_ne digit (c := '\n') (by decide),
    digit_ne digit (c := '\t') (by decide), digit_ne digit (c := '\r') (by decide)]

theorem readValue_digit {d : Char} (digit : d.isDigit = true) (fuel depth : Nat)
    (rest : List Char) : readValue (fuel + 1) depth (d :: rest) = readNumber (d :: rest) := by
  rw [readValue, skipGap_cons (not_gap_of_digit digit)]
  split
  case h_7 => rfl
  all_goals
    rename_i eq
    exact absurd (List.cons.inj eq).1 (digit_ne digit (by decide))

theorem outlineFrom_digit {d : Char} (digit : d.isDigit = true) (fuel : Nat) (rest : List Char) :
    outlineFrom (fuel + 1) (d :: rest) = (skipNumber (d :: rest)).map (.scalar, ·) := by
  rw [outlineFrom, skipGap_cons (not_gap_of_digit digit)]
  split
  case h_7 => rfl
  all_goals
    rename_i eq
    exact absurd (List.cons.inj eq).1 (digit_ne digit (by decide))

theorem compact_text {text : String} (plain : ∀ c ∈ text.toList, IsPlain c) :
    (compact (.str text)).toList = '"' :: text.toList ++ ['"'] := quoted_of_plain plain

theorem compact_number (n : Nat) : (compact (.int n)).toList = (Nat.repr n).toList := rfl

theorem repr_cons (n : Nat) :
    ∃ d digits, (Nat.repr n).toList = d :: digits ∧ d.isDigit = true := by
  obtain ⟨d, digits, eq⟩ := List.exists_cons_of_ne_nil (Nat.toDigits_ne_nil (n := n) (b := 10))
  exact ⟨d, digits, (Nat.toList_repr).trans eq, digits_repr n d (eq ▸ List.mem_cons_self)⟩

theorem readValue_of_flat {value : Json} (flat : IsFlat value) (fuel depth : Nat) :
    readValue (fuel + 1) depth (compact value).toList = .ok (value, []) := by
  cases flat with
  | @text text plain =>
    have enough : text.toList.length < (text.toList ++ ['"']).length + 1 := by
      simp only [List.length_append]
      omega
    rw [compact_text plain, List.cons_append, readValue, skipGap_cons (by decide)]
    simp only [readString_of_plain plain [] [] enough]
    simp [Except.map]
  | @number n fits =>
    have read := readNumber_repr fits
    obtain ⟨d, digits, eq, digit⟩ := repr_cons n
    rw [compact_number]
    rw [eq] at read ⊢
    rw [readValue_digit digit, read]

theorem outlineFrom_of_flat {value : Json} (flat : IsFlat value) {c : Char}
    (ends : endsNumber c = true) (fuel : Nat) (rest : List Char) :
    outlineFrom (fuel + 1) ((compact value).toList ++ c :: rest) = some (.scalar, c :: rest) := by
  cases flat with
  | @text text plain =>
    have skipped := skipString_of_plain plain (c :: rest)
    rw [compact_text plain, List.append_assoc, List.cons_append, List.singleton_append,
      outlineFrom, skipGap_cons (by decide)]
    simp [skipped]
  | @number n fits =>
    have skipped := skipNumber_repr n ends rest
    obtain ⟨d, digits, eq, digit⟩ := repr_cons n
    rw [compact_number]
    rw [eq, List.cons_append] at skipped ⊢
    rw [outlineFrom_digit digit, skipped]
    rfl

theorem ascii_of_digit {d : Char} (digit : d.isDigit = true) : d.toNat ≤ 127 := by
  have ⟨_, small⟩ := Char.isDigit_iff_toNat.1 digit
  have nine : '9'.toNat = 57 := rfl
  omega

theorem ascii_quoted {text : String} (plain : ∀ c ∈ text.toList, IsPlain c) :
    ∀ c ∈ (quoted text).toList, c.toNat ≤ 127 := by
  intro c mem
  rw [quoted_of_plain plain] at mem
  simp only [List.cons_append, List.mem_cons, List.mem_append, List.not_mem_nil, or_false] at mem
  rcases mem with rfl | mem | rfl
  · decide
  · exact (plain c mem).2.1
  · decide

theorem ascii_compact {value : Json} (flat : IsFlat value) :
    ∀ c ∈ (compact value).toList, c.toNat ≤ 127 := by
  cases flat with
  | text plain => exact ascii_quoted plain
  | @number n fits =>
    intro c mem
    rw [compact_number, Nat.toList_repr] at mem
    exact ascii_of_digit (digits_repr n c mem)

theorem readPart?_compact {value : Json} (flat : IsFlat value) :
    readPart? (compact value).toList = some value := by
  have whole : read (compact value).toList = .ok value := by
    simp only [Json.read, readValue_of_flat flat, bind, Except.bind]
    rfl
  simp only [readPart?, Text.ofBytes?_map (ascii_compact flat), Option.bind_some,
    String.toList_ofList, read?, whole]
  rfl

/-! ## Objects -/

def FlatMember (member : String × Json) : Prop :=
  (∀ c ∈ member.1.toList, IsPlain c) ∧ IsFlat member.2

theorem flatMember_of_all {name : String} {value : Json}
    (all : name.toList.all (fun c => decide (IsPlain c)) = true) (flat : IsFlat value) :
    FlatMember (name, value) := ⟨plain_of_all all, flat⟩

def writtenMember (member : String × Json) : List Char × List Char :=
  ((compact (.str member.1)).toList, (compact member.2).toList)

theorem written_append (front rest : List Char) : written (front ++ rest) rest = front := by
  simp [written]

theorem written_quoted {name : String} (plain : ∀ c ∈ name.toList, IsPlain c) (rest : List Char) :
    written ('"' :: (name.toList ++ '"' :: rest)) rest = (compact (.str name)).toList := by
  have text : '"' :: (name.toList ++ '"' :: rest) = (compact (.str name)).toList ++ rest := by
    simp [compact_text plain]
  rw [text, written_append]

def membersAfter (fuel : Nat) (member : List Char × List Char) (s : List Char) :
    Option (List (List Char × List Char) × List Char) :=
  match skipGap s with
  | ',' :: rest => do
    let (members, rest) ← membersFrom fuel rest
    return (member :: members, rest)
  | '\x7d' :: rest => return ([member], rest)
  | _ => none

theorem membersFrom_front {name : String} {value : Json} (flat : FlatMember (name, value))
    {c : Char} (ends : endsNumber c = true) (fuel : Nat) (rest : List Char) :
    membersFrom (fuel + 2) ((quoted name ++ ":" ++ compact value).toList ++ c :: rest)
      = membersAfter (fuel + 1) (writtenMember (name, value)) (c :: rest) := by
  have ⟨plain, flatValue⟩ := flat
  have text : (quoted name ++ ":" ++ compact value).toList ++ c :: rest
      = '"' :: (name.toList ++ '"' :: ':' :: ((compact value).toList ++ c :: rest)) := by
    simp [quoted_of_plain plain]
  rw [text, membersFrom, skipGap_cons (by decide)]
  simp only [skipString_of_plain plain, Option.bind_eq_bind, Option.bind_some,
    skipGap_cons (c := ':') rfl, outlineFrom_of_flat flatValue ends, written_append,
    written_quoted plain]
  rfl

theorem membersFrom_of_flat {members : List (String × Json)} (given : members ≠ [])
    (flat : ∀ member ∈ members, FlatMember member) {fuel : Nat} (enough : members.length < fuel)
    (rest : List Char) :
    membersFrom fuel ((compactMembers members).toList ++ '\x7d' :: rest)
      = some (members.map writtenMember, rest) := by
  induction members generalizing fuel with
  | nil => exact absurd rfl given
  | cons member others ih =>
    obtain ⟨name, value⟩ := member
    obtain ⟨fuel, rfl⟩ : ∃ less, fuel = less + 2 := ⟨fuel - 2, by simp at enough; omega⟩
    have ⟨here, later⟩ := List.forall_mem_cons.1 flat
    cases others with
    | nil =>
      rw [compactMembers, membersFrom_front here (by decide), membersAfter,
        skipGap_cons (by decide)]
      rfl
    | cons next others =>
      have less : (next :: others).length < fuel + 1 := by simpa using enough
      have read := ih (List.cons_ne_nil next others) later less
      have text : (compactMembers ((name, value) :: next :: others)).toList ++ '\x7d' :: rest
          = (quoted name ++ ":" ++ compact value).toList
            ++ ',' :: ((compactMembers (next :: others)).toList ++ '\x7d' :: rest) := by
        simp [compactMembers]
      rw [text, membersFrom_front here (by decide), membersAfter, skipGap_cons (by decide)]
      simp only [read, Option.bind_eq_bind, Option.bind_some]
      rfl

theorem outlineFrom_brace {c : Char} (printed : isGap c = false) (more : c ≠ '\x7d') (fuel : Nat)
    (rest : List Char) :
    outlineFrom (fuel + 1) ('\x7b' :: c :: rest)
      = (membersFrom fuel (c :: rest)).map fun (parts, rest) => (.members parts, rest) := by
  rw [outlineFrom, skipGap_cons (by decide)]
  simp only [skipGap_cons printed]
  split
  next eq => exact absurd (List.cons.inj eq).1 more
  next => rfl

theorem length_le_compactMembers (members : List (String × Json)) :
    members.length ≤ (compactMembers members).toList.length := by
  induction members with
  | nil => simp
  | cons member others ih =>
    cases others with
    | nil =>
      simp only [compactMembers, String.toList_append, List.length_append]
      have : ":".toList.length = 1 := rfl
      simp only [List.length_cons, List.length_nil]
      omega
    | cons next others =>
      simp only [compactMembers, String.toList_append, List.length_append, List.length_cons] at ih ⊢
      have : ":".toList.length = 1 := rfl
      omega

theorem ascii_compactMembers {members : List (String × Json)}
    (flat : ∀ member ∈ members, FlatMember member) :
    ∀ c ∈ (compactMembers members).toList, c.toNat ≤ 127 := by
  have colon : ∀ c ∈ ":".toList, c.toNat ≤ 127 := by simp
  have comma : ∀ c ∈ ",".toList, c.toNat ≤ 127 := by simp
  induction members with
  | nil => nofun
  | cons member others ih =>
    obtain ⟨name, value⟩ := member
    have ⟨⟨plain, flatValue⟩, later⟩ := List.forall_mem_cons.1 flat
    have nameText := ascii_quoted plain
    have valueText := ascii_compact flatValue
    cases others with
    | nil =>
      simp only [compactMembers, String.toList_append, List.forall_mem_append]
      exact ⟨⟨nameText, colon⟩, valueText⟩
    | cons next others =>
      simp only [compactMembers, String.toList_append, List.forall_mem_append]
      exact ⟨⟨⟨⟨nameText, colon⟩, valueText⟩, comma⟩, ih later⟩

/-- The parts of the text of a flat object are the texts of its members. -/
theorem outline?_compact {members : List (String × Json)} (given : members ≠ [])
    (flat : ∀ member ∈ members, FlatMember member) :
    outline? (compact (.obj members)).toUTF8.toList
      = some (.members (members.map writtenMember)) := by
  -- The text within the braces begins with a quote, so it is neither blank nor the closing brace.
  have front : ∃ tail, (compactMembers members).toList = '"' :: tail := by
    obtain ⟨⟨name, value⟩, others, rfl⟩ := List.exists_cons_of_ne_nil given
    have ⟨⟨plain, _⟩, _⟩ := List.forall_mem_cons.1 flat
    cases others <;> simp [compactMembers, quoted_of_plain plain]
  obtain ⟨tail, front⟩ := front
  have text : (compact (.obj members)).toList
      = '\x7b' :: ((compactMembers members).toList ++ ['\x7d']) := by simp [compact]
  have ascii : ∀ c ∈ (compact (.obj members)).toList, c.toNat ≤ 127 := by
    rw [text]
    simp only [List.forall_mem_cons, List.forall_mem_append]
    exact ⟨by decide, ascii_compactMembers flat, by decide, nofun⟩
  have chars : (compact (.obj members)).toUTF8.toList.map Text.charOf
      = (compact (.obj members)).toList := by
    rw [← Text.chars_ofList ascii, String.ofList_toList]
  have outer (fuel : Nat) (enough : members.length < fuel) :
      outlineFrom (fuel + 1) (compact (.obj members)).toList
        = some (.members (members.map writtenMember), []) := by
    have inner := membersFrom_of_flat given flat enough []
    rw [front, List.cons_append] at inner
    rw [text, front, List.cons_append, outlineFrom_brace (by decide) (by decide), inner]
    rfl
  have enough : members.length < 2 * (compact (.obj members)).toList.length + 1 := by
    have length := length_le_compactMembers members
    rw [text, List.length_cons, List.length_append]
    omega
  simp only [outline?, chars, outer _ enough, Option.bind_eq_bind, Option.bind_some]
  rfl

end FleetRegistry.Json
