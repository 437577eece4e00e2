/-
Dates and times by their counts.

The date of a count is found by stepping: through the years from a guess, then through the months
of the year. Both walks stop in front of the first step that would pass the count, and they stop
where they should as soon as the place that is looked for lies within their reach
(`eq_of_steps`). For the months that is the whole year. For the years it is the guess that
decides, and it is never too late and never 28 years too early (`guess_le`, `le_guess_add`).

So a date is found for a count exactly if it has that count (`ofDayNumber?_eq_some_iff`), and the
same goes for times and their microseconds (`ofMicros?_eq_some_iff`). No count between the first
and the last one is left out, since every day but the last one has a next day
(`exists_dayNumber_iff`).
-/
import LogSearch.Proofs.Calendar.Order

set_option autoImplicit false

namespace LogSearch.Calendar

/-! ## Stepping -/

/-- A walk that goes on as long as the next place still lies in front of the count `n` ends at the
last place in front of it, if that is within reach. -/
theorem eq_of_steps (before : Nat → Nat) (walk : Nat → Nat → Nat) {n target : Nat}
    (hstop : ∀ k, walk 0 k = k)
    (hstep : ∀ steps k,
      walk (steps + 1) k = if before (k + 1) < n then walk steps (k + 1) else k)
    (hfront : ∀ k ≤ target, before k < n) (hbehind : n ≤ before (target + 1))
    {steps k : Nat} (hk : k ≤ target) (hreach : target ≤ k + steps) :
    walk steps k = target := by
  induction steps generalizing k with
  | zero => rw [hstop, Nat.le_antisymm hk hreach]
  | succ steps ih =>
    rw [hstep]
    rcases Nat.eq_or_lt_of_le hk with rfl | hlt
    · rw [if_neg (Nat.not_lt.mpr hbehind)]
    · rw [if_pos (hfront (k + 1) hlt)]
      exact ih hlt (by omega)

/-! ## The date of a count -/

variable {d : Date}

theorem daysBeforeYear_mono {year later : Nat} (h : year ≤ later) :
    daysBeforeYear year ≤ daysBeforeYear later := by
  rcases Nat.eq_or_lt_of_le h with rfl | hlt
  · exact Nat.le_refl _
  · cases year with
    | zero => exact Nat.zero_le _
    | succ year => exact Nat.le_of_add_right_le (daysBeforeYear_add_le (Nat.succ_pos year) hlt)

theorem daysBeforeMonth_mono (year : Nat) {month later : Nat} (h : month ≤ later) :
    daysBeforeMonth year month ≤ daysBeforeMonth year later := by
  rcases Nat.eq_or_lt_of_le h with rfl | hlt
  · exact Nat.le_refl _
  · cases month with
    | zero => exact Nat.zero_le _
    | succ month =>
      exact Nat.le_of_add_right_le (daysBeforeMonth_add_le year (Nat.succ_pos month) hlt)

/-- No year has more than 366 days. -/
theorem daysInYear_le (year : Nat) : daysInYear year ≤ 366 := by
  unfold daysInYear
  split <;> omega

/-- The guess for the year of a date is not too late. -/
theorem guess_le (d : Date) : (d.dayNumber - 1) / 366 + 1 ≤ d.year := by
  obtain ⟨⟨hyear, -⟩, -⟩ := d.isDate
  have hwithin := dayOfYear_le d
  have hlong := daysInYear_le d.year
  unfold Date.dayNumber daysBeforeYear
  omega

/-- The guess is less than 28 years too early: that many leap days have to be missing for one
year, and the calendar has room for fewer. -/
theorem le_guess_add (d : Date) : d.year ≤ (d.dayNumber - 1) / 366 + 1 + 28 := by
  obtain ⟨⟨hyear, hyear'⟩, -, hday, -⟩ := d.isDate
  unfold Date.dayNumber daysBeforeYear
  omega

/-- The year of a date is found. -/
theorem lastYearBefore_dayNumber (d : Date) :
    lastYearBefore d.dayNumber 28 ((d.dayNumber - 1) / 366 + 1) = d.year := by
  obtain ⟨⟨hyear, -⟩, -, hday, -⟩ := d.isDate
  have hwithin := dayOfYear_le d
  refine eq_of_steps daysBeforeYear (lastYearBefore d.dayNumber)
    (fun _ => rfl) (fun _ _ => rfl) ?_ ?_ (guess_le d) (le_guess_add d)
  · intro year hle
    have hmono := daysBeforeYear_mono hle
    unfold Date.dayNumber
    omega
  · have hnext := daysBeforeYear_add_le hyear (Nat.lt_add_one d.year)
    unfold Date.dayNumber
    omega

/-- The month of a date is found by the day of the year. -/
theorem lastMonthBefore_dayOfYear (d : Date) :
    lastMonthBefore d.year (daysBeforeMonth d.year d.month + d.day) 11 1 = d.month := by
  obtain ⟨-, ⟨hmonth, hmonth'⟩, hday, hday'⟩ := d.isDate
  refine eq_of_steps (daysBeforeMonth d.year)
    (lastMonthBefore d.year (daysBeforeMonth d.year d.month + d.day))
    (fun _ => rfl) (fun _ _ => rfl) ?_ ?_ hmonth (by omega)
  · intro month hle
    have hmono := daysBeforeMonth_mono d.year hle
    omega
  · have hnext := daysBeforeMonth_add_le d.year hmonth (Nat.lt_add_one d.month)
    omega

theorem dayNumber_of_ofDayNumber? {n : Nat} (h : Date.ofDayNumber? n = some d) :
    d.dayNumber = n := by
  unfold Date.ofDayNumber? at h
  dsimp only at h
  split at h
  · rename_i hdate
    cases h
    -- the day is at least 1, so nothing was lost in the subtractions
    have hday := hdate.2.2.1
    unfold Date.dayNumber
    dsimp only
    omega
  · cases h

/-- **The date of a count** is the one with that count. -/
theorem ofDayNumber?_eq_some_iff {n : Nat} : Date.ofDayNumber? n = some d ↔ d.dayNumber = n := by
  constructor
  · exact dayNumber_of_ofDayNumber?
  · rintro rfl
    have hrest : d.dayNumber - daysBeforeYear d.year = daysBeforeMonth d.year d.month + d.day := by
      unfold Date.dayNumber
      omega
    unfold Date.ofDayNumber?
    simp only [lastYearBefore_dayNumber, hrest, lastMonthBefore_dayOfYear, Nat.add_sub_cancel_left]
    rw [dif_pos d.isDate]

/-! ## No count is left out -/

/-- The count of the last day, 31 December of year 9999. -/
def lastDayNumber : Nat := 3652059

theorem dayNumber_pos (d : Date) : 1 ≤ d.dayNumber := by
  obtain ⟨-, -, hday, -⟩ := d.isDate
  unfold Date.dayNumber
  omega

theorem dayNumber_le (d : Date) : d.dayNumber ≤ lastDayNumber := by
  obtain ⟨⟨hyear, hyear'⟩, -⟩ := d.isDate
  have hwithin := dayOfYear_le d
  have hbefore : daysBeforeYear d.year + daysInYear d.year ≤ daysBeforeYear 10000 :=
    daysBeforeYear_add_le hyear (Nat.lt_succ_of_le hyear')
  have hall : daysBeforeYear 10000 = lastDayNumber := by decide
  unfold Date.dayNumber
  omega

theorem daysInMonth_pos (year month : Nat) : 1 ≤ daysInMonth year month := by
  unfold daysInMonth
  repeat' split
  all_goals omega

theorem daysBeforeMonth_succ (year : Nat) {month : Nat} (h : 1 ≤ month) :
    daysBeforeMonth year (month + 1) = daysBeforeMonth year month + daysInMonth year month := by
  obtain ⟨m, rfl⟩ := Nat.exists_eq_add_of_le' h
  rfl

/-- Behind the last day of a month all days of the month have passed. -/
theorem dayNumber_of_lastOfMonth (h : ¬ d.day < daysInMonth d.year d.month) :
    d.dayNumber = daysBeforeYear d.year + daysBeforeMonth d.year (d.month + 1) := by
  obtain ⟨-, ⟨hmonth, -⟩, -, hday⟩ := d.isDate
  rw [daysBeforeMonth_succ d.year hmonth]
  unfold Date.dayNumber
  omega

/-- Behind the last day of a year all days of the year have passed. -/
theorem dayNumber_of_lastOfYear (hday : ¬ d.day < daysInMonth d.year d.month)
    (hmonth : d.month = 12) : d.dayNumber = daysBeforeYear (d.year + 1) := by
  obtain ⟨⟨hyear, -⟩, -⟩ := d.isDate
  obtain ⟨y, hy⟩ := Nat.exists_eq_add_of_le' hyear
  have hnext : daysBeforeYear (d.year + 1) = daysBeforeYear d.year + daysInYear d.year := by
    rw [hy]
    exact daysBeforeYear_succ y
  rw [dayNumber_of_lastOfMonth hday, hmonth, daysBeforeMonth_thirteen, hnext]

/-- Every day but the last one has a next day: in its month, or the first of the next month, or
the first of the next year. -/
theorem exists_next (d : Date) (h : d.dayNumber < lastDayNumber) :
    ∃ e : Date, e.dayNumber = d.dayNumber + 1 := by
  obtain ⟨hyear, ⟨hmonth, hmonth'⟩, hday, -⟩ := d.isDate
  by_cases hlastDay : d.day < daysInMonth d.year d.month
  · exact ⟨⟨d.year, d.month, d.day + 1, hyear, ⟨hmonth, hmonth'⟩, by omega, hlastDay⟩, rfl⟩
  · by_cases hlastMonth : d.month < 12
    · refine ⟨⟨d.year, d.month + 1, 1, hyear, ⟨by omega, hlastMonth⟩, by omega,
        daysInMonth_pos _ _⟩, ?_⟩
      rw [dayNumber_of_lastOfMonth hlastDay]
      rfl
    · have hcount := dayNumber_of_lastOfYear hlastDay (by omega)
      have hyear' : d.year + 1 ≤ 9999 := by
        have hall : daysBeforeYear 10000 = lastDayNumber := by decide
        refine Nat.lt_of_not_le fun hlast => ?_
        have hmono : daysBeforeYear 10000 ≤ daysBeforeYear (d.year + 1) :=
          daysBeforeYear_mono (Nat.succ_le_succ hlast)
        omega
      refine ⟨⟨d.year + 1, 1, 1, ⟨by omega, hyear'⟩, by decide, by omega, daysInMonth_pos _ 1⟩, ?_⟩
      rw [hcount]
      rfl

/-- The counts of dates go from 1 to the last one, without a gap. -/
theorem exists_dayNumber_iff {n : Nat} :
    (∃ d : Date, d.dayNumber = n) ↔ 1 ≤ n ∧ n ≤ lastDayNumber := by
  constructor
  · rintro ⟨d, rfl⟩
    exact ⟨dayNumber_pos d, dayNumber_le d⟩
  · rintro ⟨hlow, hhigh⟩
    induction hlow with
    | refl => exact ⟨⟨1, 1, 1, by decide⟩, by decide⟩
    | step hn ih =>
      obtain ⟨d, rfl⟩ := ih (Nat.le_of_succ_le hhigh)
      exact exists_next d hhigh

namespace DateTime

/-! ## The time of a count -/

variable {t : DateTime}

/-- The parts of a time of day add up to it. -/
theorem toMicros_of_ofMicros? {n : Int} (h : ofMicros? n = some t) : (t.toMicros : Int) = n := by
  unfold ofMicros? at h
  split at h
  · cases h
  · rename_i hsign
    split at h
    · cases h
    · rename_i date hdate
      cases h
      have hday := dayNumber_of_ofDayNumber? hdate
      have hsplit := Nat.div_add_mod' n.toNat microsPerDay
      have hrest : n.toNat % microsPerDay < microsPerDay := Nat.mod_lt _ (by decide)
      unfold toMicros microsOfDay
      dsimp only
      rw [hday]
      generalize n.toNat % microsPerDay = rest at *
      simp only [microsPerDay] at *
      omega

/-- A time is found on every day of the calendar. -/
theorem exists_ofMicros? {n : Nat} {d : Date} (h : d.dayNumber = n / microsPerDay) :
    ∃ t, ofMicros? (n : Int) = some t := by
  have hday : Date.ofDayNumber? ((n : Int).toNat / microsPerDay) = some d :=
    ofDayNumber?_eq_some_iff.mpr h
  unfold ofMicros?
  rw [if_neg (Int.not_lt.mpr (Int.natCast_nonneg n))]
  split
  · rename_i hnone
    rw [hday] at hnone
    cases hnone
  · exact ⟨_, rfl⟩

/-- **The time of a count** is the one with that count. -/
theorem ofMicros?_eq_some_iff {n : Int} : ofMicros? n = some t ↔ (t.toMicros : Int) = n := by
  constructor
  · exact toMicros_of_ofMicros?
  · rintro rfl
    -- the count is taken apart into the day and the rest again, so some time is found
    have hday : t.date.dayNumber = t.toMicros / microsPerDay := by
      have hrest := microsOfDay_lt t
      rw [toMicros, Nat.mul_comm, Nat.mul_add_div (by decide), Nat.div_eq_of_lt hrest, Nat.add_zero]
    obtain ⟨s, hs⟩ := exists_ofMicros? hday
    have hcount := toMicros_of_ofMicros? hs
    rw [hs, eq_of_toMicros_eq (s := s) (t := t) (by omega)]

theorem shift?_eq_some_iff {s : DateTime} {micros : Int} :
    s.shift? micros = some t ↔ (t.toMicros : Int) = s.toMicros + micros :=
  ofMicros?_eq_some_iff

/-- The counts of times go from the first midnight up to the end of the last day. -/
theorem exists_toMicros_iff {n : Nat} :
    (∃ t : DateTime, t.toMicros = n)
      ↔ microsPerDay ≤ n ∧ n < (lastDayNumber + 1) * microsPerDay := by
  constructor
  · rintro ⟨t, rfl⟩
    have hlow := dayNumber_pos t.date
    have hhigh := dayNumber_le t.date
    have hrest := microsOfDay_lt t
    unfold toMicros microsPerDay at *
    omega
  · rintro ⟨hlow, hhigh⟩
    have hday : 1 ≤ n / microsPerDay ∧ n / microsPerDay ≤ lastDayNumber := by
      unfold microsPerDay at *
      omega
    obtain ⟨d, hd⟩ := exists_dayNumber_iff.mpr hday
    obtain ⟨t, ht⟩ := exists_ofMicros? hd
    exact ⟨t, Int.ofNat_inj.mp (ofMicros?_eq_some_iff.mp ht)⟩

end DateTime

end LogSearch.Calendar
