/-!
Decimal digits. A number is read from digits alone; where a sign is admitted it is a plus, and
leading zeros never matter.
-/
namespace FleetRegistry.Text

def digitValue? (c : Char) : Option Nat :=
  if '0' ≤ c ∧ c ≤ '9' then some (c.toNat - '0'.toNat) else none

/-- The value of digits that continue a number. -/
def digitsFrom (value : Nat) : List Char → Option Nat
  | [] => some value
  | c :: rest => (digitValue? c).bind fun d => digitsFrom (value * 10 + d) rest

def digits? : List Char → Option Nat
  | [] => none
  | s => digitsFrom 0 s

theorem digitsFrom_append (value : Nat) (s t : List Char) :
    digitsFrom value (s ++ t) = (digitsFrom value s).bind fun v => digitsFrom v t := by
  induction s generalizing value with
  | nil => rfl
  | cons c rest ih =>
    cases h : digitValue? c with
    | none => simp [digitsFrom, h]
    | some d => simp [digitsFrom, h, ih]

theorem digitValue?_digitChar {d : Nat} (h : d < 10) : digitValue? d.digitChar = some d := by
  have all : ∀ d < 10, digitValue? d.digitChar = some d := by decide
  exact all d h

theorem digitsFrom_toDigits (n : Nat) : digitsFrom 0 (Nat.toDigits 10 n) = some n := by
  induction n using Nat.strongRecOn with
  | ind n ih =>
    by_cases small : n < 10
    · simp [Nat.toDigits_of_lt_base small, digitsFrom, digitValue?_digitChar small]
    · have last := digitValue?_digitChar (Nat.mod_lt n (by decide : 10 > 0))
      rw [Nat.toDigits_of_base_le (by decide) (Nat.le_of_not_lt small), digitsFrom_append,
        ih (n / 10) (by omega)]
      simp only [Option.bind_some, digitsFrom, last, Option.some.injEq]
      omega

@[simp] theorem digits?_repr (n : Nat) : digits? (Nat.repr n).toList = some n := by
  rw [Nat.toList_repr, digits?]
  · exact digitsFrom_toDigits n
  · exact Nat.toDigits_ne_nil

/-- The value of a number in decimal digits with at most one plus in front, if it is below the
limit. -/
def unsigned? (limit : Nat) (s : List Char) : Option Nat :=
  let plain := match s with
    | '+' :: rest => rest
    | _ => s
  (digits? plain).filter (· < limit)

theorem unsigned?_of_digits {limit n : Nat} {s : List Char} (h : digits? s = some n) :
    unsigned? limit s = if n < limit then some n else none := by
  unfold unsigned?
  split
  next => simp [digits?, digitsFrom, digitValue?] at h
  next => simp [h, Option.filter]

/-- Two digits or more, with zeros in front where the number is short. -/
def padded (width n : Nat) : String :=
  let text := Nat.repr n
  String.ofList (List.replicate (width - text.length) '0') ++ text

def takeDigits (s : List Char) : List Char × List Char :=
  s.span Char.isDigit

end FleetRegistry.Text
