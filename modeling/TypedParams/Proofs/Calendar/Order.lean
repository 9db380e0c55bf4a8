import TypedParams.Proofs.Calendar.Moment

/-! The order of dates. Main statement: dates and moments are in the order of their numbers, and so
stand one for one for the numbers of the calendar. -/
namespace TypedParams

namespace Date

/-- Earlier in the calendar. -/
def Precedes (d e : Date) : Prop :=
  d.year < e.year ∨
    d.year = e.year ∧ (d.month < e.month ∨ d.month = e.month ∧ d.day < e.day)

theorem eq_or_precedes (d e : Date) : d = e ∨ d.Precedes e ∨ e.Precedes d := by
  obtain ⟨year, month, day⟩ := d
  obtain ⟨year', month', day'⟩ := e
  simp only [Precedes, Date.mk.injEq]
  omega

/-- A year ends where the next one begins. -/
theorem daysBeforeYear_succ {year : Nat} (h : 1 ≤ year) :
    daysBeforeYear (year + 1) = daysBeforeYear year + daysBeforeMonth year 13 := by
  have hfours : year / 4 = (year - 1) / 4 + if year % 4 = 0 then 1 else 0 := by
    split_ifs <;> omega
  have hcenturies : year / 100 = (year - 1) / 100 + if year % 100 = 0 then 1 else 0 := by
    split_ifs <;> omega
  have hcycles : year / 400 = (year - 1) / 400 + if year % 400 = 0 then 1 else 0 := by
    split_ifs <;> omega
  have hless : (year - 1) / 100 ≤ (year - 1) / 4 := by omega
  have hyear : daysBeforeMonth year 13 =
      if year % 4 = 0 ∧ (year % 100 ≠ 0 ∨ year % 400 = 0) then 366 else 365 := by
    rw [daysBeforeMonth_thirteen]
    simp only [isLeap_iff]
  rw [hyear, daysBeforeYear, daysBeforeYear, Nat.add_sub_cancel, hfours, hcenturies, hcycles]
  generalize (year - 1) / 4 = fours at *
  generalize (year - 1) / 100 = centuries at *
  split_ifs <;> omega

theorem daysBeforeYear_le {year year' : Nat} (h : 1 ≤ year) (h' : year < year') :
    daysBeforeYear year + daysBeforeMonth year 13 ≤ daysBeforeYear year' := by
  induction h' with
  | refl => exact Nat.le_of_eq (daysBeforeYear_succ h).symm
  | @step year' hyear ih =>
    have hnext := daysBeforeYear_succ (Nat.le_trans h (Nat.le_of_lt hyear))
    change _ ≤ daysBeforeYear (year' + 1)
    omega

theorem daysBeforeMonth_le {month month' : Nat} (year : Nat) (h : 1 ≤ month) (h' : month < month') :
    daysBeforeMonth year month + daysInMonth year month ≤ daysBeforeMonth year month' := by
  induction h' with
  | refl => exact Nat.le_of_eq (daysBeforeMonth_succ year h).symm
  | @step month' hmonth ih =>
    have hnext := daysBeforeMonth_succ year (Nat.le_trans h (Nat.le_of_lt hmonth))
    change _ ≤ daysBeforeMonth year (month' + 1)
    omega

theorem dayOfYear_lt {d : Date} (h : d.Valid) :
    daysBeforeMonth d.year d.month + (d.day - 1) < daysBeforeMonth d.year 13 := by
  obtain ⟨-, hmonth, hday⟩ := h
  have hend : d.month < 13 := Nat.lt_succ_of_le hmonth.2
  have hmonths := daysBeforeMonth_le d.year hmonth.1 hend
  omega

theorem ordinal_lt_of_precedes {d e : Date} (hd : d.Valid) (h : d.Precedes e) :
    d.ordinal < e.ordinal := by
  have hdayOfYear := dayOfYear_lt hd
  unfold ordinal
  rcases h with hyear | ⟨hyear, hmonth | ⟨hmonth, hday⟩⟩
  · have hyears := daysBeforeYear_le hd.1.1 hyear
    omega
  · have hmonths := daysBeforeMonth_le d.year hd.2.1.1 hmonth
    have hlast := hd.2.2.2
    have hfirst := hd.2.2.1
    rw [← hyear]
    omega
  · have hfirst := hd.2.2.1
    rw [← hyear, ← hmonth]
    omega

theorem precedes_iff {d e : Date} (hd : d.Valid) (he : e.Valid) :
    d.Precedes e ↔ d.ordinal < e.ordinal := by
  constructor
  · exact ordinal_lt_of_precedes hd
  · intro h
    rcases eq_or_precedes d e with rfl | hde | hed
    · exact absurd h (Nat.lt_irrefl _)
    · exact hde
    · have hless := ordinal_lt_of_precedes he hed
      omega

theorem ordinal_inj {d e : Date} (hd : d.Valid) (he : e.Valid) (h : d.ordinal = e.ordinal) :
    d = e := by
  rcases eq_or_precedes d e with hde | hde | hde
  · exact hde
  · exact absurd h (Nat.ne_of_lt (ordinal_lt_of_precedes hd hde))
  · exact absurd h.symm (Nat.ne_of_lt (ordinal_lt_of_precedes he hde))

theorem ordinal_eq_iff {d e : Date} (hd : d.Valid) (he : e.Valid) : d.ordinal = e.ordinal ↔ d = e :=
  ⟨ordinal_inj hd he, congrArg ordinal⟩

theorem ordinal_lt {d : Date} (h : d.Valid) : d.ordinal < 3652059 := by
  have hdayOfYear := dayOfYear_lt h
  have hyears := daysBeforeYear_le h.1.1 (Nat.lt_succ_of_le h.1.2)
  have hend : daysBeforeYear 10000 = 3652059 := rfl
  rw [hend] at hyears
  unfold ordinal
  omega

theorem ofOrdinal_ordinal {d : Date} (h : d.Valid) : ofOrdinal d.ordinal = d := by
  obtain ⟨hvalid, hordinal⟩ := ofOrdinal_spec (ordinal_lt h)
  exact ordinal_inj hvalid h hordinal

end Date

namespace TimeOfDay

/-- Earlier on the clock. -/
def Precedes (t u : TimeOfDay) : Prop :=
  t.hour < u.hour ∨ t.hour = u.hour ∧
    (t.minute < u.minute ∨ t.minute = u.minute ∧
      (t.second < u.second ∨ t.second = u.second ∧ t.micro < u.micro))

theorem precedes_iff {t u : TimeOfDay} (ht : t.Valid) (hu : u.Valid) :
    t.Precedes u ↔ t.micros < u.micros := by
  obtain ⟨-, hminute, hsecond, hmicro⟩ := ht
  obtain ⟨-, hminute', hsecond', hmicro'⟩ := hu
  unfold Precedes micros
  omega

theorem micros_lt {t : TimeOfDay} (h : t.Valid) : t.micros < microsPerDay := by
  obtain ⟨hhour, hminute, hsecond, hmicro⟩ := h
  unfold micros microsPerDay
  omega

theorem ofMicros_micros {t : TimeOfDay} (h : t.Valid) : ofMicros t.micros = t := by
  obtain ⟨hour, minute, second, micro⟩ := t
  obtain ⟨hhour, hminute, hsecond, hmicro⟩ := h
  simp only at hhour hminute hsecond hmicro
  simp only [ofMicros, micros, TimeOfDay.mk.injEq]
  omega

end TimeOfDay

namespace Moment

/-- Earlier in the calendar, or on the same day earlier on the clock. -/
def Precedes (m n : Moment) : Prop :=
  m.date.Precedes n.date ∨ m.date = n.date ∧ m.time.Precedes n.time

theorem precedes_iff {m n : Moment} (hm : m.Valid) (hn : n.Valid) :
    m.Precedes n ↔ m.instant < n.instant := by
  have hdate := Date.precedes_iff hm.1 hn.1
  have hclock := TimeOfDay.precedes_iff hm.2 hn.2
  have htime := TimeOfDay.micros_lt hm.2
  have htime' := TimeOfDay.micros_lt hn.2
  rw [Precedes, hdate, hclock, ← Date.ordinal_eq_iff hm.1 hn.1]
  unfold instant micros
  unfold microsPerDay at *
  omega

theorem ofMicros_micros {m : Moment} (h : m.Valid) : ofMicros m.micros = m := by
  have htime := TimeOfDay.micros_lt h.2
  have hpos : 0 < microsPerDay := by decide
  have hday : m.micros / microsPerDay = m.date.ordinal := by
    rw [micros, Nat.add_comm, Nat.add_mul_div_right _ _ hpos, Nat.div_eq_of_lt htime, Nat.zero_add]
  have hclock : m.micros % microsPerDay = m.time.micros := by
    rw [micros, Nat.add_comm, Nat.add_mul_mod_self_right, Nat.mod_eq_of_lt htime]
  rw [ofMicros, hday, hclock, Date.ofOrdinal_ordinal h.1, TimeOfDay.ofMicros_micros h.2]

theorem micros_lt {m : Moment} (h : m.Valid) : m.micros < 3652059 * microsPerDay := by
  have hdate := Date.ordinal_lt h.1
  have htime := TimeOfDay.micros_lt h.2
  unfold micros
  unfold microsPerDay at *
  omega

/-- Moments are at instants of the years 1 to 9999. -/
theorem instant_bounds {m : Moment} (h : m.Valid) :
    leastInstant ≤ m.instant ∧ m.instant ≤ greatestInstant := by
  have hmicros := micros_lt h
  unfold instant leastInstant greatestInstant epochMicros
  unfold microsPerDay at *
  omega

theorem ofInstant_instant {m : Moment} (h : m.Valid) : ofInstant m.instant = m := by
  have hmicros : (m.instant + epochMicros).toNat = m.micros := by
    rw [instant, Int.sub_add_cancel, Int.toNat_natCast]
  rw [ofInstant, hmicros, ofMicros_micros h]

end Moment
end TypedParams
