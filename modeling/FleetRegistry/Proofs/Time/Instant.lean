import FleetRegistry.Proofs.Time.Calendar
import FleetRegistry.Time.Instant
import Mathlib.Data.Nat.Digits.Defs

/-!
Instants as text. The text of an instant is in whole seconds, and reads back as the instant without
its fraction.
-/
namespace FleetRegistry

/-! ## Numbers of a fixed width -/

namespace Text

theorem digitsFrom_zeros (count : Nat) (s : List Char) :
    digitsFrom 0 (List.replicate count '0' ++ s) = digitsFrom 0 s := by
  induction count with
  | zero => rfl
  | succ count ih => exact ih

theorem toList_padded (width n : Nat) :
    (padded width n).toList
      = List.replicate (width - (Nat.repr n).length) '0' ++ Nat.toDigits 10 n := by
  simp [padded, Nat.toList_repr]

theorem digits?_padded (width n : Nat) : digits? (padded width n).toList = some n := by
  rw [toList_padded, digits?, digitsFrom_zeros, digitsFrom_toDigits]
  exact fun empty => Nat.toDigits_ne_nil (List.append_eq_nil_iff.1 empty).2

theorem length_padded (width n : Nat) (pos : 0 < width) (fits : n < 10 ^ width) :
    (padded width n).toList.length = width := by
  have short := Nat.repr_length n width pos fits
  have same : (Nat.toDigits 10 n).length = (Nat.repr n).length := by
    rw [← Nat.toList_repr, String.length_toList]
  rw [toList_padded, List.length_append, List.length_replicate, same]
  omega

theorem isDigit_of_mem_padded {width n : Nat} {c : Char} (mem : c ∈ (padded width n).toList) :
    c.isDigit = true := by
  rw [toList_padded, List.mem_append] at mem
  rcases mem with zero | digit
  · rw [List.eq_of_mem_replicate zero]
    rfl
  · exact Nat.isDigit_of_mem_toDigits (by decide) (by decide) digit

end Text

namespace Instant

theorem fixed?_padded (width n : Nat) (pos : 0 < width) (fits : n < 10 ^ width)
    (rest : List Char) :
    fixed? width ((Text.padded width n).toList ++ rest) = some (n, rest) := by
  have length := Text.length_padded width n pos fits
  have long : ¬ ((Text.padded width n).toList ++ rest).length < width := by simp [length]
  rw [fixed?, if_neg long, List.take_left' length, List.drop_left' length, Text.digits?_padded]
  rfl

/-! ## Parts of a text -/

theorem year?_digit {c : Char} (digit : c.isDigit = true) (s : List Char) :
    year? (c :: s) = (fixed? 4 (c :: s)).map fun (year, rest) => ((year : Int), rest) := by
  unfold year?
  split
  next minus => simp [(List.cons.inj minus).1] at digit
  next plus => simp [(List.cons.inj plus).1] at digit
  next => rfl

theorem year?_yearText {year : Int} (low : -9999 ≤ year) (high : year ≤ 9999)
    (rest : List Char) : year? ((yearText 6 year).toList ++ rest) = some (year, rest) := by
  unfold yearText
  split
  next positive =>
    obtain ⟨n, rfl⟩ := Int.eq_ofNat_of_zero_le positive
    have read := fixed?_padded 4 n (by decide) (by omega) rest
    have digits (c : Char) (mem : c ∈ (Text.padded 4 n).toList) := Text.isDigit_of_mem_padded mem
    match eq : (Text.padded 4 n).toList with
    | [] => simpa [eq] using Text.length_padded 4 n (by decide) (by omega)
    | c :: s =>
      rw [eq, List.cons_append] at read
      simp [year?_digit (digits c (eq ▸ List.mem_cons_self)), read]
  next negative =>
    obtain ⟨n, rfl⟩ : ∃ n : Nat, year = -(n : Int) := ⟨year.natAbs, by omega⟩
    have read := fixed?_padded 6 n (by decide) (by omega) rest
    have notZero : n ≠ 0 := by omega
    simp [year?, read, notZero]

theorem date?_wholeText {date : Time.Date} (valid : date.isValid = true)
    (low : -9999 ≤ date.year) (high : date.year ≤ 9999) (rest : List Char) :
    date? ((yearText 6 date.year).toList ++ '-' :: ((Text.padded 2 date.month).toList
        ++ '-' :: ((Text.padded 2 date.day).toList ++ rest)))
      = some (date, rest) := by
  have ⟨⟨⟨_, month⟩, _⟩, day⟩ : ((1 ≤ date.month ∧ date.month ≤ 12) ∧ 1 ≤ date.day)
      ∧ date.day ≤ Time.monthLength date.year date.month := by
    simpa [Time.Date.isValid] using valid
  have short : Time.monthLength date.year date.month ≤ 31 := by
    unfold Time.monthLength
    split <;> split <;> omega
  have readYear := year?_yearText low high
  have readMonth := fixed?_padded 2 date.month (by decide) (by omega)
  have readDay := fixed?_padded 2 date.day (by decide) (by omega)
  simp [date?, readYear, skip?, readMonth, readDay, valid, low, high]

theorem pair?_colon (n : Nat) (fits : n < 100) (rest : List Char) :
    pair? true (':' :: ((Text.padded 2 n).toList ++ rest)) = some (some n, rest) := by
  simp [pair?, fixed?_padded 2 n (by decide) fits]

theorem clock?_wholeText (hour minute second : Nat) (hh : hour ≤ 23) (hm : minute ≤ 59)
    (hs : second ≤ 59) (rest : List Char) :
    clock? ((Text.padded 2 hour).toList ++ ':' :: ((Text.padded 2 minute).toList
        ++ ':' :: ((Text.padded 2 second).toList ++ 'Z' :: rest)))
      = some (⟨hour, minute, second, 0⟩, 'Z' :: rest) := by
  have readHour := fixed?_padded 2 hour (by decide) (by omega)
  have readMinute := pair?_colon minute (by omega)
  have readSecond := pair?_colon second (by omega)
  have long : second ≤ 60 := by omega
  simp [clock?, minutes?, fraction?, readHour, readMinute, readSecond, hh, hm, hs, long]

/-! ## The round trip -/

def wholeSecond (instant : Instant) : Instant := { instant with nanos := ⟨0, instant.nanos.pos⟩ }

theorem wholeSecond_eq_self {instant : Instant} :
    instant.wholeSecond = instant ↔ instant.nanos.val = 0 := by
  constructor
  · exact fun same => (congrArg (·.nanos.val) same).symm
  · intro whole
    obtain ⟨seconds, nanos, dated⟩ := instant
    exact congrArg (Instant.mk seconds · dated) (Fin.ext whole.symm)

theorem map_wholeSecond {time : Option Instant} :
    time.map wholeSecond = time ↔ ∀ instant ∈ time, instant.nanos.val = 0 := by
  cases time <;> simp [wholeSecond_eq_self]

theorem toList_text (instant : Instant) :
    instant.text.toList =
      let date := Time.Date.ofDays (instant.seconds / 86400)
      let second := (instant.seconds % 86400).toNat
      (yearText 6 date.year).toList ++ '-' :: ((Text.padded 2 date.month).toList
        ++ '-' :: ((Text.padded 2 date.day).toList ++ 'T' :: ((Text.padded 2 (second / 3600)).toList
        ++ ':' :: ((Text.padded 2 (second / 60 % 60)).toList
        ++ ':' :: ((Text.padded 2 (second % 60)).toList ++ 'Z' :: []))))) := by
  simp [text, wholeText]

theorem parse?_text (instant : Instant) : parse? instant.text = some instant.wholeSecond := by
  have ⟨low, high⟩ : earliestSecond ≤ instant.seconds ∧ instant.seconds ≤ latestSecond := by
    simpa [hasDate] using instant.dated
  unfold earliestSecond at low
  unfold latestSecond at high
  obtain ⟨second, eq⟩ : ∃ second : Nat, instant.seconds % 86400 = second :=
    ⟨(instant.seconds % 86400).toNat, by omega⟩
  have ⟨first, last⟩ := Time.year_ofDays (instant.seconds / 86400) (by omega) (by omega)
  have date := date?_wholeText (Time.isValid_ofDays (instant.seconds / 86400)) first last
  have clock := clock?_wholeText (second / 3600) (second / 60 % 60) (second % 60)
    (by omega) (by omega) (by omega)
  have sum : instant.seconds / 86400 * 86400 + (second : Int) / 3600 * 3600
      + (second : Int) / 60 % 60 * 60 + (second : Int) % 60 = instant.seconds := by omega
  have plain : areAnnotations [] = true := rfl
  simp [parse?, toList_text, eq, date, clock, offset?, plain, Time.toDays_ofDays, sum,
    instant.dated, wholeSecond]

end Instant

end FleetRegistry
