import FleetRegistry.Time.Calendar

/-!
Dates and days. Every count of days is the count of the date that it stands for, and that date is
one of the calendar.
-/
namespace FleetRegistry.Time

theorem exists_cycle {dayOfEra : Nat} (h : dayOfEra ≤ 146096) :
    ∃ century cycle year day, dayOfEra = 36524 * century + 1461 * cycle + 365 * year + day
      ∧ century ≤ 3 ∧ cycle ≤ 24 ∧ year ≤ 3 ∧ day ≤ 365
      ∧ (day = 365 → year = 3 ∧ (cycle = 24 → century = 3)) := by
  obtain ⟨century, le, low, high⟩ : ∃ century ≤ 3, 36524 * century ≤ dayOfEra
      ∧ (dayOfEra - 36524 * century ≤ 36523 ∨ century = 3) := by
    by_cases last : dayOfEra = 146096
    · exact ⟨3, by omega, by omega, .inr rfl⟩
    · exact ⟨dayOfEra / 36524, by omega, by omega, by omega⟩
  obtain ⟨day, eq⟩ : ∃ day, dayOfEra = 36524 * century + day := ⟨_, (Nat.add_sub_cancel' low).symm⟩
  by_cases last : day % 1461 = 1460
  · exact ⟨century, day / 1461, 3, 365, by omega⟩
  · exact ⟨century, day / 1461, day % 1461 / 365, day % 1461 % 365, by omega⟩

def firstDay (yearOfEra : Nat) : Nat := 365 * yearOfEra + yearOfEra / 4 - yearOfEra / 100

def yearOfDay (dayOfEra : Nat) : Nat :=
  (dayOfEra - dayOfEra / 1460 + dayOfEra / 36524 - dayOfEra / 146096) / 365

theorem yearOfDay_eq {century cycle year day : Nat} (hc : century ≤ 3) (hq : cycle ≤ 24)
    (hy : year ≤ 3) (hd : day ≤ 365) (long : day = 365 → year = 3 ∧ (cycle = 24 → century = 3)) :
    yearOfDay (36524 * century + 1461 * cycle + 365 * year + day)
      = 100 * century + 4 * cycle + year := by
  generalize eq : 36524 * century + 1461 * cycle + 365 * year + day = dayOfEra
  -- The days by which cycles of 1460 and centuries of 36524 are off cancel out but for one.
  have cycles : dayOfEra / 1460
      = 25 * century + cycle + (24 * century + cycle + 365 * year + day) / 1460 := by omega
  have centuries : dayOfEra / 36524 - dayOfEra / 146096 = century := by omega
  have eras : dayOfEra / 146096 ≤ dayOfEra / 36524 := by omega
  unfold yearOfDay
  omega

theorem yearOfDay_spec {dayOfEra : Nat} (h : dayOfEra ≤ 146096) :
    yearOfDay dayOfEra ≤ 399 ∧ firstDay (yearOfDay dayOfEra) ≤ dayOfEra
      ∧ dayOfEra - firstDay (yearOfDay dayOfEra) ≤ 365
      ∧ (dayOfEra - firstDay (yearOfDay dayOfEra) = 365 →
        ∀ era : Int, isLeapYear (era * 400 + yearOfDay dayOfEra + 1) = true) := by
  obtain ⟨century, cycle, year, day, rfl, hc, hq, hy, hd, long⟩ := exists_cycle h
  rw [yearOfDay_eq hc hq hy hd long]
  have first : firstDay (100 * century + 4 * cycle + year)
      = 36524 * century + 1461 * cycle + 365 * year := by
    have cycles : (100 * century + 4 * cycle + year) / 4 = 25 * century + cycle := by omega
    have centuries : (100 * century + 4 * cycle + year) / 100 = century := by omega
    unfold firstDay
    omega
  rw [first]
  refine ⟨by omega, by omega, by omega, fun last era => ?_⟩
  have ⟨third, end_⟩ := long (by omega)
  simp only [isLeapYear, Bool.and_eq_true, Bool.or_eq_true, beq_iff_eq, bne_iff_ne]
  omega

/-! ## Days of a year -/

def Date.ofParts (era : Int) (yearOfEra dayOfYear : Nat) : Date :=
  let month := (5 * dayOfYear + 2) / 153
  let day := dayOfYear - (153 * month + 2) / 5 + 1
  let month := if month < 10 then month + 3 else month - 9
  { year := era * 400 + yearOfEra + (if month ≤ 2 then 1 else 0), month, day }

theorem exists_parts (days : Int) :
    ∃ (era : Int) (yearOfEra dayOfYear : Nat),
      days + 719468 = era * 146097 + firstDay yearOfEra + dayOfYear
      ∧ yearOfEra ≤ 399 ∧ dayOfYear ≤ 365
      ∧ (dayOfYear = 365 → isLeapYear (era * 400 + yearOfEra + 1) = true)
      ∧ Date.ofDays days = .ofParts era yearOfEra dayOfYear := by
  have inEra : ((days + 719468) % 146097).toNat ≤ 146096 := by omega
  have ⟨year, low, high, long⟩ := yearOfDay_spec inEra
  refine ⟨(days + 719468) / 146097, yearOfDay ((days + 719468) % 146097).toNat, _, ?_, year, high,
    fun last => long last _, rfl⟩
  omega

theorem ofParts_cases (era : Int) (yearOfEra : Nat) {dayOfYear : Nat} (hd : dayOfYear ≤ 365) :
    ∃ month ≤ 11, (153 * month + 2) / 5 ≤ dayOfYear
      ∧ dayOfYear < (153 * (month + 1) + 2) / 5
      ∧ (month < 10 ∧ Date.ofParts era yearOfEra dayOfYear
            = ⟨era * 400 + yearOfEra, month + 3, dayOfYear - (153 * month + 2) / 5 + 1⟩
        ∨ 10 ≤ month ∧ Date.ofParts era yearOfEra dayOfYear
            = ⟨era * 400 + yearOfEra + 1, month - 9, dayOfYear - (153 * month + 2) / 5 + 1⟩) := by
  refine ⟨(5 * dayOfYear + 2) / 153, by omega, by omega, by omega, ?_⟩
  unfold Date.ofParts
  by_cases first : (5 * dayOfYear + 2) / 153 < 10
  · exact .inl ⟨first, by simp [first]⟩
  · have late : (5 * dayOfYear + 2) / 153 ≤ 11 := by omega
    exact .inr ⟨by omega, by simp [first, late]⟩

theorem toDays_ofParts (era : Int) {yearOfEra dayOfYear : Nat} (hy : yearOfEra ≤ 399)
    (hd : dayOfYear ≤ 365) : (Date.ofParts era yearOfEra dayOfYear).toDays
      = era * 146097 + firstDay yearOfEra + dayOfYear - 719468 := by
  have eras : (era * 400 + yearOfEra) / 400 = era := by omega
  have years : (era * 400 + yearOfEra) % 400 = yearOfEra := by omega
  have before : yearOfEra / 100 ≤ 365 * yearOfEra + yearOfEra / 4 := by omega
  obtain ⟨month, le, low, high, ⟨first, eq⟩ | ⟨late, eq⟩⟩ := ofParts_cases era yearOfEra hd
  · have notWinter : ¬ month + 3 ≤ 2 := by omega
    simp only [eq, Date.toDays, firstDay, if_neg notWinter, eras, years]
    omega
  · have winter : month - 9 ≤ 2 := by omega
    have added : month - 9 + 9 = month := by omega
    have back : era * 400 + yearOfEra + 1 - 1 = era * 400 + (yearOfEra : Int) := by omega
    simp only [eq, Date.toDays, firstDay, if_pos winter, added, back, eras, years]
    omega

theorem isValid_ofParts (era : Int) {yearOfEra dayOfYear : Nat} (hd : dayOfYear ≤ 365)
    (long : dayOfYear = 365 → isLeapYear (era * 400 + yearOfEra + 1) = true) :
    (Date.ofParts era yearOfEra dayOfYear).isValid = true := by
  obtain ⟨month, le, low, high, ⟨first, eq⟩ | ⟨late, eq⟩⟩ := ofParts_cases era yearOfEra hd
  · simp only [eq, Date.isValid, monthLength, Bool.and_eq_true, decide_eq_true_eq]
    refine ⟨⟨⟨by omega, by omega⟩, by omega⟩, ?_⟩
    have notFebruary : ¬ month + 3 = 2 := by omega
    rw [if_neg notFebruary]
    split <;> omega
  · simp only [eq, Date.isValid, Bool.and_eq_true, decide_eq_true_eq]
    refine ⟨⟨⟨by omega, by omega⟩, by omega⟩, ?_⟩
    obtain rfl | rfl : month = 10 ∨ month = 11 := by omega
    · show _ ≤ 31
      omega
    · show _ ≤ if _ then 29 else 28
      by_cases last : dayOfYear = 365
      · rw [if_pos (long last)]
        omega
      · split <;> omega

/-! ## Every count of days -/

theorem toDays_ofDays (days : Int) : (Date.ofDays days).toDays = days := by
  obtain ⟨era, year, day, eq, hy, hd, -, parts⟩ := exists_parts days
  rw [parts, toDays_ofParts era hy hd]
  omega

theorem isValid_ofDays (days : Int) : (Date.ofDays days).isValid = true := by
  obtain ⟨era, year, day, -, -, hd, long, parts⟩ := exists_parts days
  rw [parts, isValid_ofParts era hd long]

theorem year_ofDays (days : Int) (low : -4371586 ≤ days) (high : days ≤ 2932895) :
    -9999 ≤ (Date.ofDays days).year ∧ (Date.ofDays days).year ≤ 9999 := by
  obtain ⟨era, year, day, eq, hy, hd, -, parts⟩ := exists_parts days
  rw [parts]
  unfold firstDay at eq
  obtain ⟨month, le, from_, to_, ⟨first, eq'⟩ | ⟨late, eq'⟩⟩ := ofParts_cases era year hd
  all_goals rw [eq']; simp only
  · omega
  · omega

end FleetRegistry.Time
