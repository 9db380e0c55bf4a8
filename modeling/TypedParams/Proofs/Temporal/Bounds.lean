import TypedParams.Proofs.Encoding.Contents

/-! Literals at the ends of the calendar. Main statement: an accepted literal denotes an instant of
the years 1 to 9999, which has a timestamp too, unless its offset carries it out of the calendar. -/
namespace TypedParams

namespace Reading

/-- In universal time the first day has not begun yet, or the last one is over. -/
def LeavesCalendar (r : Reading) : Prop :=
  r.date = ⟨1, 1, 1⟩ ∧ (r.time.micros : Int) < r.aheadSeconds * 1000000 ∨
    r.date = ⟨9999, 12, 31⟩ ∧ (microsPerDay : Int) ≤ r.time.micros - r.aheadSeconds * 1000000

instance (r : Reading) : Decidable r.LeavesCalendar := by unfold LeavesCalendar; infer_instance

theorem valid_of_ofChars? {ps : List Part} {cs : List Char} {r : Reading}
    (h : ofChars? ps cs = some r) : r.Valid := by
  obtain ⟨fs, -, hr⟩ := Option.bind_eq_some_iff.1 h
  simp only at hr
  split_ifs at hr with hvalid
  rw [← Option.some.inj hr]
  exact hvalid

theorem instant_eq (r : Reading) :
    r.instant = leastInstant + r.date.ordinal * microsPerDay +
      (r.time.micros - r.aheadSeconds * 1000000) := by
  have hepoch : (epochMicros : Int) = -leastInstant := by decide
  rw [instant, Moment.instant, Moment.micros, hepoch]
  push_cast
  omega

/-- No offset carries a reading farther than a day out of the calendar. -/
theorem Valid.instant_cases {r : Reading} (h : r.Valid) :
    ¬r.LeavesCalendar ∧ (leastInstant ≤ r.instant ∧ r.instant ≤ greatestInstant) ∨
      r.LeavesCalendar ∧ (leastInstant - microsPerDay < r.instant ∧ r.instant < leastInstant ∨
        greatestInstant < r.instant ∧ r.instant < greatestInstant + microsPerDay) := by
  obtain ⟨hdate, htime, hahead⟩ := h
  have hclock := TimeOfDay.micros_lt htime
  have hordinal := Date.ordinal_lt hdate
  have hfirstValid : (Date.mk 1 1 1).Valid := by decide
  have hlastValid : (Date.mk 9999 12 31).Valid := by decide
  have hfirst : r.date.ordinal = 0 ↔ r.date = ⟨1, 1, 1⟩ := Date.ordinal_eq_iff hdate hfirstValid
  have hlast : r.date.ordinal = 3652058 ↔ r.date = ⟨9999, 12, 31⟩ :=
    Date.ordinal_eq_iff hdate hlastValid
  have hend : greatestInstant = leastInstant + 3652059 * microsPerDay - 1 := by decide
  rw [LeavesCalendar, ← hfirst, ← hlast, instant_eq, hend]
  generalize leastInstant = least
  unfold microsPerDay at *
  omega

end Reading

open Timestamp (Denotes)

/-- An accepted literal denotes one instant. Where its offset leaves it in the calendar, that is an
instant of the years 1 to 9999, and its timestamp denotes it too. A literal of the first day whose
offset carries it back before that day, or of the last day and carried on beyond it, is accepted all
the same: its instant is less than a day outside and has no timestamp. -/
theorem encodeScalar_admits_instant {type : Value} (htype : type.Names (.scalar .timestamp))
    {t : Text} {s : String} (hs : encodeScalar .builtIn (.text t) type = .ok s) :
    ∃ r, TemporalType.timestamp.ReadsAs s r ∧ (∀ n, Denotes s n ↔ n = r.instant) ∧
      (¬r.LeavesCalendar → (leastInstant ≤ r.instant ∧ r.instant ≤ greatestInstant) ∧
        ∀ g, ∃ s', encodeScalar .builtIn (.int r.instant g) type = .ok s' ∧
          ∀ n, Denotes s' n ↔ n = r.instant) ∧
      (r.LeavesCalendar → (leastInstant - microsPerDay < r.instant ∧ r.instant < leastInstant ∨
          greatestInstant < r.instant ∧ r.instant < greatestInstant + microsPerDay) ∧
        ∀ g, ∃ e, encodeScalar .builtIn (.int r.instant g) type = .error e ∧
          e.kind = .typeMismatch) := by
  rw [encodeScalar_builtIn htype] at hs
  obtain ⟨haccepts, rfl⟩ := TemporalType.validate_eq_ok_iff.1 hs
  obtain ⟨r, hread⟩ := TemporalType.accepts_iff_exists.1 haccepts
  have hwritten : ∀ g, encodeScalar .builtIn (.int r.instant g) type =
      Timestamp.ofMicros r.instant :=
    fun g => encodeScalar_builtIn htype _
  refine ⟨r, hread, fun n => Timestamp.denotes_iff_of_readsAs hread, ?_⟩
  rcases (Reading.valid_of_ofChars? hread.2).instant_cases with
    ⟨hstays, hbounds⟩ | ⟨hleaves, hbounds⟩
  · refine ⟨fun _ => ⟨hbounds, fun g => ?_⟩, fun h => absurd h hstays⟩
    refine ⟨_, (hwritten g).trans (Timestamp.ofMicros_eq_ok_iff.2 ⟨hbounds, rfl⟩), fun n => ?_⟩
    exact Timestamp.denotes_ofInstant hbounds
  · refine ⟨fun h => absurd hleaves h, fun _ => ⟨hbounds, fun g => ?_⟩⟩
    have houtside : ¬(leastInstant ≤ r.instant ∧ r.instant ≤ greatestInstant) := by omega
    have hnear : leastInstant - microsPerDay < r.instant ∧
        r.instant < greatestInstant + microsPerDay := by
      unfold leastInstant greatestInstant at *
      omega
    have hwritable := Timestamp.isWritable_of_near hnear
    rw [hwritten, Timestamp.ofMicros_eq, if_neg houtside, if_pos hwritable]
    exact ⟨_, rfl, rfl⟩

/-- The last microsecond of the last day, an hour ahead. -/
theorem encodeScalar_admits_instant_lastDay :
    ∃ n s', Denotes "9999-12-31 23:59:59.999999+01:00" n ∧
      encodeScalar .builtIn (.int n none) (.str "TIMESTAMP") = .ok s' ∧ Denotes s' n := by
  have htype : (Value.str "TIMESTAMP").Names (.scalar .timestamp) := ⟨_, rfl, rfl⟩
  have hs : encodeScalar .builtIn (.str "9999-12-31 23:59:59.999999+01:00") (.str "TIMESTAMP") =
      .ok "9999-12-31 23:59:59.999999+01:00" := by decide
  have hread : Reading.ofChars? (Reading.parts .timestamp)
      "9999-12-31 23:59:59.999999+01:00".toList =
        some ⟨⟨9999, 12, 31⟩, ⟨23, 59, 59, 999999⟩, 3600⟩ := rfl
  obtain ⟨r, hr, hdenotes, hstays, -⟩ := encodeScalar_admits_instant htype hs
  obtain rfl := Option.some.inj (hread.symm.trans hr.2)
  obtain ⟨-, hwritten⟩ := hstays (by decide)
  obtain ⟨s', hs', hdenotes'⟩ := hwritten none
  exact ⟨_, s', (hdenotes _).2 rfl, hs', (hdenotes' _).2 rfl⟩

/-- The start of the first day, a minute ahead, is accepted; its instant is before the calendar and
is refused. -/
theorem encodeScalar_admits_literal_only :
    encodeScalar .builtIn (.str "0001-01-01 00:00:00.000000+00:01") (.str "TIMESTAMP") =
        .ok "0001-01-01 00:00:00.000000+00:01" ∧
      Denotes "0001-01-01 00:00:00.000000+00:01" (leastInstant - 60000000) ∧
      ¬leastInstant ≤ leastInstant - 60000000 ∧
      ∃ e, encodeScalar .builtIn (.int (leastInstant - 60000000) none) (.str "TIMESTAMP") =
        .error e := by
  have hread : TemporalType.timestamp.ReadsAs "0001-01-01 00:00:00.000000+00:01"
      ⟨⟨1, 1, 1⟩, ⟨0, 0, 0, 0⟩, 60⟩ := ⟨by decide, rfl⟩
  exact ⟨by decide, ⟨_, hread, by decide⟩, by decide, _, rfl⟩

end TypedParams
