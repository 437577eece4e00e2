/-
The order of dates and times.

Times are compared by how many microseconds lie in front of them, and the count of a day is a sum
over the years and the months in front of it. That the count tells any two dates apart has one
reason at each level: what a year or a month holds comes in front of whatever follows it
(`daysBeforeYear_add_le`, `daysBeforeMonth_add_le`), and a day lies within its month, the month
within its year. So a date in an earlier year, or an earlier month of the same year, has a
smaller count (`dayNumber_lt_of_year_lt`, `dayNumber_lt_of_month_lt`), and neither of two times
lies in front of the other only if they are the same (`DateTime.le_antisymm`).
-/
import LogSearch.Calendar.DateTime

set_option autoImplicit false

namespace LogSearch.Calendar

/-! ## Years and months -/

def daysInYear (year : Nat) : Nat :=
  if isLeapYear year then 366 else 365

/-- Going on by one, a quotient grows at the multiples of the divisor. -/
theorem succ_div_eq (n k : Nat) : (n + 1) / k = n / k + if (n + 1) % k = 0 then 1 else 0 := by
  rw [Nat.succ_div]
  simp only [Nat.dvd_iff_mod_eq_zero]

/-- One year more, counted from year 1 on. The cases are those of the leap rule. -/
theorem daysBeforeYear_succ (year : Nat) :
    daysBeforeYear (year + 2) = daysBeforeYear (year + 1) + daysInYear (year + 1) := by
  have hle : year / 100 ≤ year / 4 := Nat.div_le_div_left (by decide) (by decide)
  have hcentury : (year + 1) % 100 = 0 → (year + 1) % 4 = 0 := by omega
  have hfourth : (year + 1) % 400 = 0 → (year + 1) % 100 = 0 := by omega
  unfold daysBeforeYear daysInYear isLeapYear
  rw [show year + 2 - 1 = year + 1 from rfl, Nat.add_sub_cancel, succ_div_eq year 4,
    succ_div_eq year 100, succ_div_eq year 400]
  by_cases h4 : (year + 1) % 4 = 0
  · by_cases h100 : (year + 1) % 100 = 0
    · by_cases h400 : (year + 1) % 400 = 0
      · simp [h4, h100, h400]
        omega
      · simp [h4, h100, h400]
        omega
    · have h400 : (year + 1) % 400 ≠ 0 := fun h => h100 (hfourth h)
      simp [h4, h100, h400]
      omega
  · have h100 : (year + 1) % 100 ≠ 0 := fun h => h4 (hcentury h)
    have h400 : (year + 1) % 400 ≠ 0 := fun h => h100 (hfourth h)
    simp [h4, h100, h400]
    omega

/-- All days of a year come in front of any later one. -/
theorem daysBeforeYear_add_le {year later : Nat} (hyear : 1 ≤ year) (h : year < later) :
    daysBeforeYear year + daysInYear year ≤ daysBeforeYear later := by
  obtain ⟨y, rfl⟩ := Nat.exists_eq_add_of_le' hyear
  induction h with
  | refl => exact Nat.le_of_eq (daysBeforeYear_succ y).symm
  | step hlater ih =>
    obtain ⟨l, rfl⟩ := Nat.exists_eq_add_of_le' (Nat.le_trans (Nat.le_add_left 1 (y + 1)) hlater)
    rw [daysBeforeYear_succ]
    omega

/-- All days of a month come in front of any later one. -/
theorem daysBeforeMonth_add_le (year : Nat) {month later : Nat} (hmonth : 1 ≤ month)
    (h : month < later) :
    daysBeforeMonth year month + daysInMonth year month ≤ daysBeforeMonth year later := by
  obtain ⟨m, rfl⟩ := Nat.exists_eq_add_of_le' hmonth
  induction h with
  | refl => exact Nat.le_refl _
  | step hlater ih =>
    obtain ⟨l, rfl⟩ := Nat.exists_eq_add_of_le' (Nat.le_trans (Nat.le_add_left 1 (m + 1)) hlater)
    have hnext : daysBeforeMonth year (l + 2)
        = daysBeforeMonth year (l + 1) + daysInMonth year (l + 1) := rfl
    rw [hnext]
    omega

/-- The months make up the year. -/
theorem daysBeforeMonth_thirteen (year : Nat) : daysBeforeMonth year 13 = daysInYear year := by
  simp only [daysBeforeMonth, daysInMonth, daysInYear]
  cases isLeapYear year <;> rfl

/-! ## Dates -/

variable {d e : Date}

theorem dayOfYear_le (d : Date) : daysBeforeMonth d.year d.month + d.day ≤ daysInYear d.year := by
  obtain ⟨-, ⟨hmonth, hmonth'⟩, -, hday⟩ := d.isDate
  have hle := daysBeforeMonth_add_le d.year hmonth (Nat.lt_succ_of_le hmonth')
  rw [daysBeforeMonth_thirteen] at hle
  omega

theorem dayNumber_lt_of_year_lt (h : d.year < e.year) : d.dayNumber < e.dayNumber := by
  obtain ⟨⟨hyear, -⟩, -⟩ := d.isDate
  obtain ⟨-, -, hday, -⟩ := e.isDate
  have hle := daysBeforeYear_add_le hyear h
  have hwithin := dayOfYear_le d
  unfold Date.dayNumber
  omega

theorem dayNumber_lt_of_month_lt (hyear : d.year = e.year) (h : d.month < e.month) :
    d.dayNumber < e.dayNumber := by
  obtain ⟨-, ⟨hmonth, -⟩, -, hwithin⟩ := d.isDate
  obtain ⟨-, -, hday, -⟩ := e.isDate
  have hle := daysBeforeMonth_add_le d.year hmonth h
  unfold Date.dayNumber
  rw [← hyear]
  omega

/-- A date is told by its count. -/
theorem eq_of_dayNumber_eq (h : d.dayNumber = e.dayNumber) : d = e := by
  have hyear : d.year = e.year := by
    rcases Nat.lt_trichotomy d.year e.year with hlt | heq | hgt
    · exact absurd h (Nat.ne_of_lt (dayNumber_lt_of_year_lt hlt))
    · exact heq
    · exact absurd h.symm (Nat.ne_of_lt (dayNumber_lt_of_year_lt hgt))
  have hmonth : d.month = e.month := by
    rcases Nat.lt_trichotomy d.month e.month with hlt | heq | hgt
    · exact absurd h (Nat.ne_of_lt (dayNumber_lt_of_month_lt hyear hlt))
    · exact heq
    · exact absurd h.symm (Nat.ne_of_lt (dayNumber_lt_of_month_lt hyear.symm hgt))
  have hday : d.day = e.day := by
    unfold Date.dayNumber at h
    rw [hyear, hmonth] at h
    omega
  exact Date.ext hyear hmonth hday

/-- Dates come in the order of their years, then of their months, then of their days. -/
theorem dayNumber_lt_iff : d.dayNumber < e.dayNumber
    ↔ d.year < e.year ∨ d.year = e.year ∧ (d.month < e.month ∨ d.month = e.month ∧ d.day < e.day) := by
  rcases Nat.lt_trichotomy d.year e.year with hlt | heq | hgt
  · simp only [dayNumber_lt_of_year_lt hlt, hlt, true_or]
  · rcases Nat.lt_trichotomy d.month e.month with hmlt | hmeq | hmgt
    · simp only [dayNumber_lt_of_month_lt heq hmlt, heq, hmlt, true_or, and_true, or_true]
    · unfold Date.dayNumber
      rw [heq, hmeq]
      omega
    · have hback := dayNumber_lt_of_month_lt heq.symm hmgt
      omega
  · have hback := dayNumber_lt_of_year_lt hgt
    omega

/-! ## Times -/

namespace DateTime

variable {s t : DateTime}

theorem microsOfDay_lt (t : DateTime) : t.microsOfDay < microsPerDay := by
  obtain ⟨hhour, hminute, hsecond, hmicro⟩ := t.isTime
  unfold microsOfDay microsPerDay
  omega

/-- A time is told by its count. -/
theorem eq_of_toMicros_eq (h : s.toMicros = t.toMicros) : s = t := by
  have hs := microsOfDay_lt s
  have ht := microsOfDay_lt t
  unfold toMicros at h
  -- first the day and the time of day come apart, then the numbers of the time of day
  have hdate : s.date.dayNumber = t.date.dayNumber := by
    unfold microsPerDay at *
    omega
  have htime : s.microsOfDay = t.microsOfDay := by
    rw [hdate] at h
    omega
  unfold microsOfDay at htime
  have hs' := s.isTime
  have ht' := t.isTime
  refine DateTime.ext (eq_of_dayNumber_eq hdate) ?_ ?_ ?_ ?_
  all_goals omega

theorem le_antisymm (hst : s ≤ t) (hts : t ≤ s) : s = t :=
  eq_of_toMicros_eq (Nat.le_antisymm hst hts)

end DateTime

end LogSearch.Calendar
