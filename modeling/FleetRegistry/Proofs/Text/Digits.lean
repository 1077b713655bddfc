import FleetRegistry.Text.Digits

/-!
Decimal digits and the numbers that they stand for. Digits are read as their number, whatever zeros
stand in front of it; without such zeros they are the digits in which the number is written.
-/
namespace FleetRegistry.Text

variable {s : List Char} {value n : Nat}

/-! ## Digits of numbers -/

theorem le_ofDigitChars (digits : List Char) (value : Nat) :
    value ≤ Nat.ofDigitChars 10 digits value := by
  induction digits generalizing value with
  | nil => simp
  | cons c rest ih =>
    rw [Nat.ofDigitChars_cons]
    exact Nat.le_trans (by omega) (ih _)

theorem head?_toDigits_ne_zero {n : Nat} (h : n ≠ 0) : (Nat.toDigits 10 n).head? ≠ some '0' := by
  induction n using Nat.strongRecOn with
  | ind n ih =>
    by_cases small : n < 10
    · have all : ∀ d < 10, d ≠ 0 → Nat.digitChar d ≠ '0' := by decide
      simpa [Nat.toDigits_of_lt_base small] using all n small h
    · rw [Nat.toDigits_of_base_le (by decide) (Nat.le_of_not_lt small), List.head?_append]
      have front := ih (n / 10) (by omega) (by omega)
      cases eq : (Nat.toDigits 10 (n / 10)).head? with
      | none => exact absurd (List.head?_eq_none_iff.1 eq) Nat.toDigits_ne_nil
      | some d => simpa [eq] using front

theorem digit_range {c : Char} (digit : c.isDigit = true) :
    '0'.toNat ≤ c.toNat ∧ c.toNat - '0'.toNat < 10 := by
  have ⟨least, greatest⟩ := Char.isDigit_iff_toNat.1 digit
  have nine : '9'.toNat = '0'.toNat + 9 := rfl
  exact ⟨least, by omega⟩

theorem digitChar_of_digit {c : Char} (digit : c.isDigit = true) :
    (c.toNat - '0'.toNat).digitChar = c := by
  have ⟨least, small⟩ := digit_range digit
  rw [← Char.toNat_inj, Nat.toNat_digitChar_of_lt_ten small]
  exact Nat.add_sub_cancel' least

theorem toDigits_ofDigitChars_append (digits : ∀ c ∈ s, c.isDigit = true) (positive : 0 < value) :
    Nat.toDigits 10 (Nat.ofDigitChars 10 s value) = Nat.toDigits 10 value ++ s := by
  induction s generalizing value with
  | nil => simp
  | cons c rest ih =>
    have ⟨digit, later⟩ := List.forall_mem_cons.1 digits
    have ⟨_, small⟩ := digit_range digit
    rw [Nat.ofDigitChars_cons, ih later (by omega),
      ← Nat.toDigits_append_toDigits (by decide) positive small, Nat.toDigits_of_lt_base small,
      digitChar_of_digit digit, List.append_assoc, List.singleton_append]

theorem toDigits_ofDigitChars (digits : ∀ c ∈ s, c.isDigit = true) (nonempty : s ≠ [])
    (front : s.head? ≠ some '0') : Nat.toDigits 10 (Nat.ofDigitChars 10 s 0) = s := by
  cases s with
  | nil => exact absurd rfl nonempty
  | cons c rest =>
    have ⟨digit, later⟩ := List.forall_mem_cons.1 digits
    have ⟨least, small⟩ := digit_range digit
    have positive : 0 < c.toNat - '0'.toNat := by
      have other : c.toNat ≠ '0'.toNat := by
        intro same
        exact front (congrArg some (Char.toNat_inj.1 same))
      omega
    rw [Nat.ofDigitChars_cons, Nat.mul_zero, Nat.zero_add,
      toDigits_ofDigitChars_append later positive, Nat.toDigits_of_lt_base small,
      digitChar_of_digit digit, List.singleton_append]

/-! ## Reading digits -/

theorem digitValue?_eq_some {c : Char} {d : Nat} :
    digitValue? c = some d ↔ c.isDigit = true ∧ c.toNat - '0'.toNat = d := by
  have digit : ('0' ≤ c ∧ c ≤ '9') ↔ c.isDigit = true := Char.isDigit_iff_toNat.symm
  simp only [digitValue?, digit]
  split
  next is => simp [is]
  next not => simp [not]

theorem digitsFrom_eq_some :
    digitsFrom value s = some n
      ↔ (∀ c ∈ s, c.isDigit = true) ∧ Nat.ofDigitChars 10 s value = n := by
  induction s generalizing value with
  | nil => simp [digitsFrom]
  | cons c rest ih =>
    simp only [digitsFrom, Option.bind_eq_some_iff, digitValue?_eq_some, ih, List.forall_mem_cons,
      Nat.ofDigitChars_cons, Nat.mul_comm 10 value]
    constructor
    · rintro ⟨_, ⟨digit, rfl⟩, later, eq⟩
      exact ⟨⟨digit, later⟩, eq⟩
    · rintro ⟨⟨digit, later⟩, eq⟩
      exact ⟨_, ⟨digit, rfl⟩, later, eq⟩

theorem digits?_eq_some :
    digits? s = some n
      ↔ s ≠ [] ∧ (∀ c ∈ s, c.isDigit = true) ∧ Nat.ofDigitChars 10 s 0 = n := by
  cases s with
  | nil => simp [digits?]
  | cons c rest => simp [digits?, digitsFrom_eq_some]

theorem unsigned?_eq_some {limit : Nat} :
    unsigned? limit s = some n
      ↔ n < limit ∧ ∃ sign digits, s = sign ++ digits ∧ (sign = [] ∨ sign = ['+'])
        ∧ digits? digits = some n := by
  have plain {limit : Nat} {t : List Char} :
      (digits? t).filter (· < limit) = some n ↔ n < limit ∧ digits? t = some n := by
    rw [Option.filter_eq_some_iff, decide_eq_true_eq, and_comm]
  unfold unsigned?
  rw [plain]
  refine and_congr_right fun _ => ?_
  split
  next rest =>
    constructor
    · exact fun read => ⟨['+'], rest, rfl, .inr rfl, read⟩
    · rintro ⟨_, digits, eq, rfl | rfl, read⟩
      · obtain rfl : digits = '+' :: rest := eq.symm
        exact absurd ((digits?_eq_some.1 read).2.1 '+' List.mem_cons_self) (by decide)
      · obtain rfl : rest = digits := (List.cons.inj eq).2
        exact read
  next unsigned =>
    constructor
    · exact fun read => ⟨[], s, rfl, .inl rfl, read⟩
    · rintro ⟨_, digits, rfl, rfl | rfl, read⟩
      · exact read
      · exact absurd rfl (unsigned digits)

end FleetRegistry.Text
