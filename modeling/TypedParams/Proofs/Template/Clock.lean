import TypedParams.Proofs.Temporal.Instants
import TypedParams.Proofs.Text.Decimal
import TypedParams.Template.Clock

/-! The clock's variables as literals. Main statement: they are the literals of the moment in
universal time from the year 1000 on, and in earlier years these literals without the zeros in
front. -/
namespace TypedParams

/-- Accepted texts of a type are all of one length. -/
theorem TemporalType.length_eq_of_accepts {u : TemporalType} {s s' : String}
    (h : u.accepts s = true) (h' : u.accepts s' = true) : s.toList.length = s'.toList.length := by
  cases u with
  | timestamp =>
    obtain ⟨t, -, hs⟩ := accepts_timestamp_iff.1 h
    obtain ⟨t', -, hs'⟩ := accepts_timestamp_iff.1 h'
    simp [hs, hs', Timestamp.literal, Moment.literal, Date.literal, TimeOfDay.literal,
      Offset.literal, Text.length_field]
  | date =>
    obtain ⟨d, -, hs⟩ := accepts_date_iff.1 h
    obtain ⟨d', -, hs'⟩ := accepts_date_iff.1 h'
    simp [hs, hs', Date.literal, Text.length_field]
  | time =>
    obtain ⟨t, -, hs⟩ := accepts_time_iff.1 h
    obtain ⟨t', -, hs'⟩ := accepts_time_iff.1 h'
    simp [hs, hs', TimeOfDay.literal, Text.length_field]
  | datetime =>
    obtain ⟨m, -, hs⟩ := accepts_datetime_iff.1 h
    obtain ⟨m', -, hs'⟩ := accepts_datetime_iff.1 h'
    simp [hs, hs', Moment.literal, Date.literal, TimeOfDay.literal, Text.length_field]

/-- What is left of an accepted text is accepted only if nothing was taken away in front. -/
theorem TemporalType.accepts_append_iff {u : TemporalType} {front s : String}
    (h : u.accepts (front ++ s) = true) : u.accepts s = true ↔ front = "" := by
  constructor
  · intro hs
    have hlength := length_eq_of_accepts h hs
    rw [String.toList_append, List.length_append, Nat.add_eq_right,
      List.length_eq_zero_iff] at hlength
    exact String.toList_eq_nil_iff.1 hlength
  · intro hfront
    rwa [hfront, String.empty_append] at h

namespace Clock

/-- The zeros that a clock leaves out in front of a year. -/
def missingZeros (d : Date) : List Char :=
  List.replicate (4 - (Nat.toDigits 10 d.year).length) '0'

theorem missingZeros_eq_nil_iff {d : Date} : missingZeros d = [] ↔ 1000 ≤ d.year := by
  have hdigits : (Nat.toDigits 10 d.year).length ≤ 3 ↔ d.year < 1000 :=
    Nat.length_toDigits_le_iff (by decide) (by decide)
  rw [missingZeros, List.replicate_eq_nil_iff]
  omega

theorem literal_eq_append_dateText {d : Date} (h : d.Valid) :
    d.literal = missingZeros d ++ dateText d := by
  have hyear : d.year < 10 ^ 4 := Nat.lt_succ_of_le h.1.2
  rw [Date.literal, Text.field_eq_replicate_append (by decide) hyear]
  simp only [dateText, missingZeros, List.append_assoc, List.cons_append]

theorem universal_eq {c : Clock} (hmoment : c.moment.Valid)
    (hahead : c.ahead.micros.natAbs < microsPerDay)
    (hinstant : leastInstant ≤ c.instant ∧ c.instant ≤ greatestInstant) :
    c.universal = .ok (.ofInstant c.instant) := by
  rw [universal, if_neg, if_pos hinstant]
  rw [not_or, not_not, Nat.not_le]
  exact ⟨hmoment, hahead⟩

/-! ### Texts of a moment, with the zeros in front of the year -/

theorem toList_missingZeros_date {m : Moment} (h : m.Valid) :
    (String.ofList (missingZeros m.date) ++ String.ofList (dateText m.date)).toList =
      m.date.literal := by
  rw [String.toList_append, String.toList_ofList, String.toList_ofList,
    literal_eq_append_dateText h.1]

theorem ofList_momentText (m : Moment) : String.ofList (momentText m) =
    String.ofList (dateText m.date) ++ " " ++ String.ofList m.time.literal := by
  simp [String.ext_iff, momentText]

theorem toList_missingZeros_moment {m : Moment} (h : m.Valid) :
    (String.ofList (missingZeros m.date) ++ String.ofList (momentText m)).toList = m.literal := by
  rw [String.toList_append, String.toList_ofList, String.toList_ofList, momentText, Moment.literal,
    literal_eq_append_dateText h.1, List.append_assoc]

theorem ofList_timestampText (m : Moment) :
    String.ofList (momentText m ++ Offset.utc.literal) =
      String.ofList (momentText m) ++ "+00:00" := by
  rw [String.ofList_append]
  rfl

theorem toList_missingZeros_timestamp {m : Moment} (h : m.Valid) :
    (String.ofList (missingZeros m.date) ++ (String.ofList (momentText m) ++ "+00:00")).toList =
      Timestamp.literal ⟨m, .utc⟩ := by
  rw [← String.append_assoc, String.toList_append, toList_missingZeros_moment h,
    ← Timestamp.literal_utc]
  rfl

/-- On a clock less than a day away from universal time, at an instant of the years 1 to 9999, the
variables are a date `d`, a time `t`, both with one space between them, and the same with the offset
behind. With zeros in front of the year they are literals of their types, and the timestamp is the
one of the instant; just as they are they are literals from the year 1000 on, the time at any time.
-/
theorem vars_are_literals {c : Clock} (hmoment : c.moment.Valid)
    (hahead : c.ahead.micros.natAbs < microsPerDay)
    (hinstant : leastInstant ≤ c.instant ∧ c.instant ≤ greatestInstant) :
    ∃ (m : Moment) (zeros d t : String), (m.Valid ∧ m.instant = c.instant) ∧
      c.vars = .ok [("now_date", d), ("now_time", t), ("now_datetime", d ++ " " ++ t),
        ("now_timestamp", d ++ " " ++ t ++ "+00:00")] ∧
      ((∀ z ∈ zeros.toList, z = '0') ∧ (zeros = "" ↔ 1000 ≤ m.date.year)) ∧
      (TemporalType.date.accepts (zeros ++ d) = true ∧ TemporalType.time.accepts t = true ∧
        TemporalType.datetime.accepts (zeros ++ (d ++ " " ++ t)) = true ∧
        Timestamp.ofMicros c.instant = .ok (zeros ++ (d ++ " " ++ t ++ "+00:00"))) ∧
      (TemporalType.date.accepts d = true ↔ 1000 ≤ m.date.year) ∧
      (TemporalType.datetime.accepts (d ++ " " ++ t) = true ↔ 1000 ≤ m.date.year) ∧
      (TemporalType.timestamp.accepts (d ++ " " ++ t ++ "+00:00") = true ↔
        1000 ≤ m.date.year) := by
  obtain ⟨hvalid, hsame⟩ := Moment.ofInstant_spec hinstant
  have hvars := congrArg (Except.map varsAt) (universal_eq hmoment hahead hinstant)
  have hofMicros : Timestamp.ofMicros c.instant =
      .ok (String.ofList (Timestamp.literal ⟨.ofInstant c.instant, .utc⟩)) :=
    (Timestamp.ofMicros_eq c.instant).trans (if_pos hinstant)
  -- what follows holds of every moment of the calendar
  generalize Moment.ofInstant c.instant = m at *
  have hdate : TemporalType.date.accepts
      (String.ofList (missingZeros m.date) ++ String.ofList (dateText m.date)) = true :=
    TemporalType.accepts_date_iff.2 ⟨_, hvalid.1, toList_missingZeros_date hvalid⟩
  have htime : TemporalType.time.accepts (String.ofList m.time.literal) = true :=
    TemporalType.accepts_time_iff.2 ⟨_, hvalid.2, String.toList_ofList⟩
  have hdatetime : TemporalType.datetime.accepts
      (String.ofList (missingZeros m.date) ++ String.ofList (momentText m)) = true :=
    TemporalType.accepts_datetime_iff.2 ⟨_, hvalid, toList_missingZeros_moment hvalid⟩
  have htimestamp : TemporalType.timestamp.accepts (String.ofList (missingZeros m.date) ++
      (String.ofList (momentText m) ++ "+00:00")) = true :=
    TemporalType.accepts_timestamp_iff.2
      ⟨_, ⟨hvalid, Timestamp.valid_utc⟩, toList_missingZeros_timestamp hvalid⟩
  have hzeros : String.ofList (missingZeros m.date) = "" ↔ 1000 ≤ m.date.year := by
    rw [← missingZeros_eq_nil_iff, ← String.toList_eq_nil_iff, String.toList_ofList]
  refine ⟨m, String.ofList (missingZeros m.date), String.ofList (dateText m.date),
    String.ofList m.time.literal, ⟨hvalid, hsame⟩, ?_⟩
  rw [← ofList_momentText]
  refine ⟨?vars, ⟨?allZeros, hzeros⟩, ⟨hdate, htime, hdatetime, ?instant⟩,
    (TemporalType.accepts_append_iff hdate).trans hzeros,
    (TemporalType.accepts_append_iff hdatetime).trans hzeros,
    (TemporalType.accepts_append_iff htimestamp).trans hzeros⟩
  case vars =>
    rw [← ofList_timestampText]
    exact hvars
  case allZeros =>
    rw [String.toList_ofList]
    intro z hz
    exact List.eq_of_mem_replicate hz
  case instant =>
    rw [hofMicros, ← toList_missingZeros_timestamp hvalid, String.ofList_toList]

/-- Half an hour into the year 1000 on a clock a little more than an hour ahead. -/
def newYearClock : Clock := ⟨⟨⟨1000, 1, 1⟩, ⟨0, 30, 0, 0⟩⟩, ⟨3600000001⟩⟩

/-- In universal time the last day of the year 999 is not over yet. -/
theorem vars_are_literals_newYear :
    newYearClock.moment.Valid ∧ newYearClock.ahead.micros.natAbs < microsPerDay ∧
      (leastInstant ≤ newYearClock.instant ∧ newYearClock.instant ≤ greatestInstant) ∧
      ∃ zeros d t : String, newYearClock.vars = .ok [("now_date", d), ("now_time", t),
          ("now_datetime", d ++ " " ++ t), ("now_timestamp", d ++ " " ++ t ++ "+00:00")] ∧
        Timestamp.ofMicros newYearClock.instant = .ok (zeros ++ (d ++ " " ++ t ++ "+00:00")) := by
  have hmoment : newYearClock.moment.Valid := by decide
  have hahead : newYearClock.ahead.micros.natAbs < microsPerDay := by decide
  have hinstant : leastInstant ≤ newYearClock.instant ∧ newYearClock.instant ≤ greatestInstant := by
    decide
  obtain ⟨m, zeros, d, t, -, hvars, -, ⟨-, -, -, hofMicros⟩, -⟩ :=
    vars_are_literals hmoment hahead hinstant
  exact ⟨hmoment, hahead, hinstant, zeros, d, t, hvars, hofMicros⟩

/-- In the year 999 the date on a clock in universal time is no date literal. -/
theorem vars_not_literals_early :
    ∃ (c : Clock) (vs : List (String × String)) (d : String),
      (c.moment.Valid ∧ c.ahead.micros = 0 ∧
        leastInstant ≤ c.instant ∧ c.instant ≤ greatestInstant) ∧
        c.vars = .ok vs ∧ vs.lookup "now_date" = some d ∧ TemporalType.date.accepts d = false :=
  ⟨⟨⟨⟨999, 12, 31⟩, ⟨23, 59, 59, 999999⟩⟩, 0⟩, _, _, by decide, rfl, rfl, rfl⟩

end Clock
end TypedParams
