import Mathlib.Tactic.SplitIfs
import TypedParams.Calendar.Date

/-! Dates and day numbers. Main statement: the day numbers up to the last of year 9999 stand for
valid dates, of which they are the numbers. -/
namespace TypedParams.Date

theorem daysInMonth_le (year month : Nat) : daysInMonth year month ≤ 31 := by
  unfold daysInMonth
  split_ifs <;> omega

theorem daysBeforeMonth_succ {month : Nat} (year : Nat) (h : 1 ≤ month) :
    daysBeforeMonth year (month + 1) = daysBeforeMonth year month + daysInMonth year month := by
  cases month with
  | zero => omega
  | succ m => rfl

/-- The days of a year. -/
theorem daysBeforeMonth_thirteen (year : Nat) :
    daysBeforeMonth year 13 = if isLeap year then 366 else 365 := by
  cases h : isLeap year <;> simp [daysBeforeMonth, daysInMonth, h]

/-- A walk over months that are long enough together ends on a day of one of them. -/
theorem monthDay_spec {year left month n : Nat} (hmonth : 1 ≤ month)
    (hn : daysBeforeMonth year month + n < daysBeforeMonth year (month + left + 1)) :
    (month ≤ (monthDay year left month n).1 ∧ (monthDay year left month n).1 ≤ month + left) ∧
      (1 ≤ (monthDay year left month n).2 ∧
        (monthDay year left month n).2 ≤ daysInMonth year (monthDay year left month n).1) ∧
      daysBeforeMonth year (monthDay year left month n).1 + ((monthDay year left month n).2 - 1) =
        daysBeforeMonth year month + n := by
  induction left generalizing month n with
  | zero =>
    have hnext := daysBeforeMonth_succ year hmonth
    simp only [monthDay]
    rw [Nat.add_zero] at hn
    omega
  | succ left ih =>
    have hnext := daysBeforeMonth_succ year hmonth
    by_cases h : n < daysInMonth year month
    · simp only [monthDay, if_pos h]
      omega
    · simp only [monthDay, if_neg h]
      have hmonth' : 1 ≤ month + 1 := by omega
      have hn' : daysBeforeMonth year (month + 1) + (n - daysInMonth year month) <
          daysBeforeMonth year (month + 1 + left + 1) := by
        have hend : month + 1 + left + 1 = month + (left + 1) + 1 := by omega
        rw [hend, hnext]
        omega
      obtain ⟨hmonths, hdays, hsum⟩ := ih hmonth' hn'
      refine ⟨by omega, hdays, ?_⟩
      rw [hsum, hnext]
      omega

theorem isLeap_iff (year : Nat) :
    isLeap year = true ↔ year % 4 = 0 ∧ (year % 100 ≠ 0 ∨ year % 400 = 0) := by
  simp [isLeap]

/-- Days before a year, by its place in the cycles of 400, 100 and 4 years. -/
theorem daysBeforeYear_of_cycles {q c k y : Nat} (hc : c ≤ 3) (hk : k ≤ 24) (hy : y ≤ 3) :
    daysBeforeYear (400 * q + 100 * c + 4 * k + y + 1) =
      146097 * q + 36524 * c + 1461 * k + 365 * y := by
  have hfours : (400 * q + 100 * c + 4 * k + y) / 4 = 100 * q + 25 * c + k := by omega
  have hcenturies : (400 * q + 100 * c + 4 * k + y) / 100 = 4 * q + c := by omega
  have hcycles : (400 * q + 100 * c + 4 * k + y) / 400 = q := by omega
  simp only [daysBeforeYear, Nat.add_sub_cancel, hfours, hcenturies, hcycles]
  omega

/-- Days of a year by its place in the cycles: a leap year is the fourth of its four, and either not
the last of its century or the last of the whole cycle. -/
theorem daysInYear_of_cycles {q c k y : Nat} (hc : c ≤ 3) (hk : k ≤ 24) (hy : y ≤ 3) :
    daysBeforeMonth (400 * q + 100 * c + 4 * k + y + 1) 13 =
      if y = 3 ∧ (k < 24 ∨ c = 3) then 366 else 365 := by
  have hleap : isLeap (400 * q + 100 * c + 4 * k + y + 1) = true ↔ y = 3 ∧ (k < 24 ∨ c = 3) := by
    rw [isLeap_iff]
    omega
  rw [daysBeforeMonth_thirteen]
  simp only [hleap]

/-- The last of four parts takes one day more. -/
theorem fourths_of_century {r : Nat} (hr : r < 146097) :
    min (r / 36524) 3 ≤ 3 ∧ 36524 * min (r / 36524) 3 + (r - min (r / 36524) 3 * 36524) = r ∧
      (r - min (r / 36524) 3 * 36524 < 36524 ∨
        min (r / 36524) 3 = 3 ∧ r - min (r / 36524) 3 * 36524 = 36524) := by
  omega

theorem fourths_of_year {r : Nat} (hr : r < 1461) :
    min (r / 365) 3 ≤ 3 ∧ 365 * min (r / 365) 3 + (r - min (r / 365) 3 * 365) = r ∧
      (r - min (r / 365) 3 * 365 < 365 ∨
        min (r / 365) 3 = 3 ∧ r - min (r / 365) 3 * 365 = 365) := by
  omega

/-- The year of a day number, and the place of the day in it. -/
theorem exists_year_day {n : Nat} (hn : n < 3652059) :
    ∃ year day, ofOrdinal n = ⟨year, (monthDay year 11 1 day).1, (monthDay year 11 1 day).2⟩ ∧
      (1 ≤ year ∧ year ≤ 9999) ∧ day < daysBeforeMonth year 13 ∧ daysBeforeYear year + day = n := by
  obtain ⟨hc, hcentury, hlastCentury⟩ := fourths_of_century (Nat.mod_lt n (by decide))
  refine ⟨_, _, rfl, ?_⟩
  generalize min (n % 146097 / 36524) 3 = c at *
  generalize n % 146097 - c * 36524 = r at *
  obtain ⟨hy, hyear, hlastYear⟩ := fourths_of_year (Nat.mod_lt r (by decide))
  generalize min (r % 1461 / 365) 3 = y at *
  generalize r % 1461 - y * 365 = d at *
  have hk : r / 1461 ≤ 24 := by omega
  refine ⟨by omega, ?_, ?_⟩
  · rw [daysInYear_of_cycles hc hk hy]
    split_ifs <;> omega
  · rw [daysBeforeYear_of_cycles hc hk hy]
    omega

/-- Day numbers stand for the dates whose numbers they are. -/
theorem ofOrdinal_spec {n : Nat} (hn : n < 3652059) :
    (ofOrdinal n).Valid ∧ (ofOrdinal n).ordinal = n := by
  obtain ⟨year, day, hdate, hyear, hday, hsum⟩ := exists_year_day hn
  have hfirst : daysBeforeMonth year 1 + day = day := Nat.zero_add day
  have hlast : daysBeforeMonth year 1 + day < daysBeforeMonth year (1 + 11 + 1) := by
    rw [hfirst]
    exact hday
  obtain ⟨hmonths, hdays, hbefore⟩ := monthDay_spec (Nat.le_refl 1) hlast
  rw [hdate]
  refine ⟨⟨hyear, hmonths, hdays⟩, ?_⟩
  rw [hfirst] at hbefore
  rw [ordinal, Nat.add_assoc, hbefore, hsum]

end TypedParams.Date
