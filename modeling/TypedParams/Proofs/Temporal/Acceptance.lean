import TypedParams.Proofs.Temporal.Reading
import TypedParams.Temporal.Format

/-! Accepted texts. Main statement: a temporal type accepts the literals of valid dates, times and
offsets, and nothing else. -/
namespace TypedParams

theorem Date.Valid.inWidth {d : Date} (h : d.Valid) : d.InWidth := by
  obtain ⟨⟨-, hyear⟩, ⟨-, hmonth⟩, -, hday⟩ := h
  have hlast := daysInMonth_le d.year d.month
  exact ⟨by omega, by omega, by omega⟩

theorem TimeOfDay.Valid.inWidth {t : TimeOfDay} (h : t.Valid) : t.InWidth := by
  obtain ⟨hhour, hminute, hsecond, hmicro⟩ := h
  exact ⟨by omega, by omega, by omega, hmicro⟩

theorem Moment.Valid.inWidth {m : Moment} (h : m.Valid) : m.InWidth :=
  ⟨Date.Valid.inWidth h.1, TimeOfDay.Valid.inWidth h.2⟩

theorem Offset.Valid.inWidth {o : Offset} (h : o.Valid) : o.InWidth := by
  obtain ⟨hhour, hminute⟩ := h
  exact ⟨by omega, by omega⟩

theorem Timestamp.Valid.inWidth {t : Timestamp} (h : t.Valid) : t.InWidth :=
  ⟨Moment.Valid.inWidth h.1, Offset.Valid.inWidth h.2⟩

namespace TemporalType
open Text

/-- An accepted text, with what is read of it. -/
def ReadsAs (u : TemporalType) (s : String) (r : Reading) : Prop :=
  u.shape.fits s.toList = true ∧ Reading.ofChars? (Reading.parts u) s.toList = some r

theorem accepts_iff_exists {u : TemporalType} {s : String} :
    u.accepts s = true ↔ ∃ r, u.ReadsAs s r := by
  rw [accepts, Bool.and_eq_true, Option.isSome_iff_exists]
  exact exists_and_left.symm

/-- Where the shape takes the literals whose fields have the right width and those of them that are
valid can be read, the valid ones are accepted. -/
theorem readsAs_iff_of_shape {u : TemporalType} {InWidth Valid : α → Prop} {literal : α → List Char}
    {reading : α → Reading} (hshape : u.shape.Takes fun cs => ∃ x, InWidth x ∧ cs = literal x)
    (hread : ∀ {x : α}, InWidth x → ∀ {r : Reading},
      Reading.ofChars? (Reading.parts u) (literal x) = some r ↔ Valid x ∧ r = reading x)
    (hwidth : ∀ {x : α}, Valid x → InWidth x) {s : String} {r : Reading} :
    u.ReadsAs s r ↔ ∃ x, Valid x ∧ s.toList = literal x ∧ r = reading x := by
  rw [ReadsAs, hshape.fits_iff]
  constructor
  · intro hx
    obtain ⟨⟨x, hx, hs⟩, hr⟩ := hx
    rw [hs] at hr
    obtain ⟨hvalid, hreading⟩ := (hread hx).1 hr
    exact ⟨x, hvalid, hs, hreading⟩
  · intro hx
    obtain ⟨x, hvalid, hs, hreading⟩ := hx
    have hx := hwidth hvalid
    rw [hs]
    exact ⟨⟨x, hx, rfl⟩, (hread hx).2 ⟨hvalid, hreading⟩⟩

theorem readsAs_date {s : String} {r : Reading} :
    date.ReadsAs s r ↔ ∃ d : Date, d.Valid ∧ s.toList = d.literal ∧
      r = { Reading.start with date := d } :=
  readsAs_iff_of_shape (u := date) takes_dateShape Reading.ofChars?_date Date.Valid.inWidth

theorem readsAs_time {s : String} {r : Reading} :
    time.ReadsAs s r ↔ ∃ t : TimeOfDay, t.Valid ∧ s.toList = t.literal ∧
      r = { Reading.start with time := t } :=
  readsAs_iff_of_shape (u := time) takes_timeShape Reading.ofChars?_time TimeOfDay.Valid.inWidth

theorem readsAs_datetime {s : String} {r : Reading} :
    datetime.ReadsAs s r ↔ ∃ m : Moment, m.Valid ∧ s.toList = m.literal ∧ r = ⟨m.date, m.time, 0⟩ :=
  readsAs_iff_of_shape (u := datetime) takes_momentShape Reading.ofChars?_datetime
    Moment.Valid.inWidth

theorem readsAs_timestamp {s : String} {r : Reading} :
    timestamp.ReadsAs s r ↔ ∃ t : Timestamp, t.Valid ∧ s.toList = t.literal ∧
      r = ⟨t.moment.date, t.moment.time, Reading.offsetSeconds t.offset.literal⟩ :=
  readsAs_iff_of_shape takes_timestampShape Reading.ofChars?_timestamp Timestamp.Valid.inWidth

theorem accepts_iff_of_readsAs {u : TemporalType} {Valid : α → Prop} {literal : α → List Char}
    {reading : α → Reading} (h : ∀ {s : String} {r : Reading},
      u.ReadsAs s r ↔ ∃ x, Valid x ∧ s.toList = literal x ∧ r = reading x) {s : String} :
    u.accepts s = true ↔ ∃ x, Valid x ∧ s.toList = literal x := by
  rw [accepts_iff_exists]
  constructor
  · intro hx
    obtain ⟨r, hr⟩ := hx
    obtain ⟨x, hvalid, hs, -⟩ := h.1 hr
    exact ⟨x, hvalid, hs⟩
  · intro hx
    obtain ⟨x, hvalid, hs⟩ := hx
    exact ⟨reading x, h.2 ⟨x, hvalid, hs, rfl⟩⟩

theorem accepts_date_iff {s : String} :
    date.accepts s = true ↔ ∃ d : Date, d.Valid ∧ s.toList = d.literal :=
  accepts_iff_of_readsAs readsAs_date

theorem accepts_time_iff {s : String} :
    time.accepts s = true ↔ ∃ t : TimeOfDay, t.Valid ∧ s.toList = t.literal :=
  accepts_iff_of_readsAs readsAs_time

theorem accepts_datetime_iff {s : String} :
    datetime.accepts s = true ↔ ∃ m : Moment, m.Valid ∧ s.toList = m.literal :=
  accepts_iff_of_readsAs readsAs_datetime

theorem accepts_timestamp_iff {s : String} :
    timestamp.accepts s = true ↔ ∃ t : Timestamp, t.Valid ∧ s.toList = t.literal :=
  accepts_iff_of_readsAs readsAs_timestamp

/-- A text is accepted as a date where it is four digits of a year, two of a month and two of one of
its days, and as a time where it is two digits each of an hour, a minute and a second and six of its
fraction. Datetimes are a date, one space and a time, timestamps a datetime and an offset of less
than a day. -/
theorem accepts_iff_literal (s : String) :
    (date.accepts s = true ↔ ∃ d : Date, d.Valid ∧ s.toList = d.literal) ∧
    (time.accepts s = true ↔ ∃ t : TimeOfDay, t.Valid ∧ s.toList = t.literal) ∧
    (datetime.accepts s = true ↔
      ∃ d t : String, date.accepts d = true ∧ time.accepts t = true ∧ s = d ++ " " ++ t) ∧
    (timestamp.accepts s = true ↔
      ∃ (m : String) (o : Offset), datetime.accepts m = true ∧ o.Valid ∧
        s = m ++ String.ofList o.literal) := by
  refine ⟨accepts_date_iff, accepts_time_iff, ?_, ?_⟩
  · rw [accepts_datetime_iff]
    constructor
    · intro hx
      obtain ⟨m, hm, hs⟩ := hx
      refine ⟨String.ofList m.date.literal, String.ofList m.time.literal,
        accepts_date_iff.2 ⟨_, hm.1, String.toList_ofList⟩,
        accepts_time_iff.2 ⟨_, hm.2, String.toList_ofList⟩, ?_⟩
      simp [String.ext_iff, hs, Moment.literal]
    · intro hx
      obtain ⟨d, t, hd, ht, rfl⟩ := hx
      obtain ⟨date, hdate, hd⟩ := accepts_date_iff.1 hd
      obtain ⟨time, htime, ht⟩ := accepts_time_iff.1 ht
      exact ⟨⟨date, time⟩, ⟨hdate, htime⟩, by simp [hd, ht, Moment.literal]⟩
  · rw [accepts_timestamp_iff]
    constructor
    · intro hx
      obtain ⟨t, ht, hs⟩ := hx
      refine ⟨String.ofList t.moment.literal, t.offset,
        accepts_datetime_iff.2 ⟨_, ht.1, String.toList_ofList⟩, ht.2, ?_⟩
      simp [String.ext_iff, hs, Timestamp.literal]
    · intro hx
      obtain ⟨m, o, hm, ho, rfl⟩ := hx
      obtain ⟨moment, hmoment, hm⟩ := accepts_datetime_iff.1 hm
      exact ⟨⟨moment, o⟩, ⟨hmoment, ho⟩, by simp [hm, Timestamp.literal]⟩

end TemporalType
end TypedParams
