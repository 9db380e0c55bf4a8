import Mathlib.Data.Set.Function
import TypedParams.Proofs.Calendar.Order
import TypedParams.Proofs.Encoding.Acceptance
import TypedParams.Proofs.Temporal.Acceptance
import TypedParams.Proofs.Text.Decimal

/-! Instants and literals. Main statement: the instants of the years 1 to 9999 stand one for one for
the literals in universal time, each for the literal that is read as it. -/
namespace TypedParams

/-- Microseconds since the epoch of a reading. -/
def Reading.instant (r : Reading) : Int :=
  (Moment.mk r.date r.time).instant - r.aheadSeconds * 1000000

namespace Timestamp

/-- The instant that is read from an accepted literal. -/
def Denotes (s : String) (n : Int) : Prop :=
  ∃ r, TemporalType.timestamp.ReadsAs s r ∧ r.instant = n

/-- Accepted literals in universal time, of the two ways to write it the one with a plus sign. -/
def IsUniversal (s : String) : Prop :=
  TemporalType.timestamp.accepts s = true ∧ "+00:00".toList <:+ s.toList

theorem valid_utc : Offset.utc.Valid := by decide

theorem literal_utc : Offset.utc.literal = "+00:00".toList := by decide

theorem offset_eq_utc_of_literal {o : Offset} (h : o.literal = Offset.utc.literal) (ho : o.Valid) :
    o = .utc := by
  have hvalue := congrArg Reading.digitsValue h
  rw [Reading.digitsValue_offset (Offset.Valid.inWidth ho),
    Reading.digitsValue_offset (Offset.Valid.inWidth valid_utc)] at hvalue
  have hzero : 100 * o.hour + o.minute = 0 := hvalue
  have hsign : (if o.west then '-' else '+') = '+' := List.head_eq_of_cons_eq h
  obtain ⟨west, hour, minute⟩ := o
  obtain ⟨rfl, rfl⟩ : hour = 0 ∧ minute = 0 := by
    change 100 * hour + minute = 0 at hzero
    omega
  cases west with
  | true => cases hsign
  | false => rfl

theorem isUniversal_iff {s : String} :
    IsUniversal s ↔ ∃ m : Moment, m.Valid ∧ s.toList = literal ⟨m, .utc⟩ := by
  rw [IsUniversal, TemporalType.accepts_timestamp_iff, ← literal_utc]
  constructor
  · intro hx
    obtain ⟨⟨⟨moment, offset⟩, hvalid, hs⟩, before, hsuffix⟩ := hx
    have hsplit : before ++ Offset.utc.literal = moment.literal ++ offset.literal :=
      hsuffix.trans hs
    have hoffset : offset = .utc :=
      offset_eq_utc_of_literal (List.append_inj_right' hsplit rfl).symm hvalid.2
    exact ⟨moment, hvalid.1, hoffset ▸ hs⟩
  · intro hx
    obtain ⟨m, hm, hs⟩ := hx
    exact ⟨⟨_, ⟨hm, valid_utc⟩, hs⟩, m.literal, hs.symm⟩

/-- What is read from a literal gives the one instant it denotes. -/
theorem denotes_iff_of_readsAs {s : String} {r : Reading}
    (h : TemporalType.timestamp.ReadsAs s r) {n : Int} : Denotes s n ↔ n = r.instant := by
  constructor
  · intro hx
    obtain ⟨r', hr', rfl⟩ := hx
    rw [Option.some.inj (hr'.2.symm.trans h.2)]
  · intro heq
    exact ⟨r, h, heq.symm⟩

/-- A literal in universal time denotes the instant of its moment and no other. -/
theorem denotes_iff {m : Moment} (hm : m.Valid) {s : String} (hs : s.toList = literal ⟨m, .utc⟩)
    {n : Int} : Denotes s n ↔ n = m.instant := by
  have hread : TemporalType.timestamp.ReadsAs s
      ⟨m.date, m.time, Reading.offsetSeconds Offset.utc.literal⟩ :=
    TemporalType.readsAs_timestamp.2 ⟨⟨m, .utc⟩, ⟨hm, valid_utc⟩, hs, rfl⟩
  have hahead : Reading.offsetSeconds Offset.utc.literal = 0 := by decide
  have hinstant : Reading.instant ⟨m.date, m.time, Reading.offsetSeconds Offset.utc.literal⟩ =
      m.instant := by
    rw [Reading.instant, hahead, Int.zero_mul, Int.sub_zero]
  rw [denotes_iff_of_readsAs hread, hinstant]

/-- The literal of an instant denotes it and no other. -/
theorem denotes_ofInstant {n n' : Int} (h : leastInstant ≤ n ∧ n ≤ greatestInstant) :
    Denotes (String.ofList (ofInstant n).literal) n' ↔ n' = n := by
  obtain ⟨hvalid, hinstant⟩ := Moment.ofInstant_spec h
  have htext : (String.ofList (ofInstant n).literal).toList = literal ⟨.ofInstant n, .utc⟩ :=
    String.toList_ofList
  rw [denotes_iff hvalid htext, hinstant]

/-- An instant of the calendar is written as the literal in universal time that denotes it. -/
theorem ofMicros_spec {n : Int} (h : leastInstant ≤ n ∧ n ≤ greatestInstant) :
    ∃ s, ofMicros n = .ok s ∧ IsUniversal s ∧ Denotes s n := by
  have huniversal : IsUniversal (String.ofList (ofInstant n).literal) :=
    isUniversal_iff.2 ⟨_, (Moment.ofInstant_spec h).1, String.toList_ofList⟩
  exact ⟨_, ofMicros_eq_ok_iff.2 ⟨h, rfl⟩, huniversal, (denotes_ofInstant h).2 rfl⟩

/-- A literal in universal time is the one written for the instant it denotes. -/
theorem exists_ofMicros_of_isUniversal {s : String} (h : IsUniversal s) :
    ∃ n, (leastInstant ≤ n ∧ n ≤ greatestInstant) ∧ Denotes s n ∧ ofMicros n = .ok s := by
  obtain ⟨m, hm, hs⟩ := isUniversal_iff.1 h
  have hbounds := Moment.instant_bounds hm
  refine ⟨m.instant, hbounds, (denotes_iff hm hs).2 rfl, ofMicros_eq_ok_iff.2 ⟨hbounds, ?_⟩⟩
  rw [ofInstant, Moment.ofInstant_instant hm, ← hs, String.ofList_toList]

theorem eq_of_denotes {s : String} (h : IsUniversal s) {n n' : Int} (hn : Denotes s n)
    (hn' : Denotes s n') : n = n' := by
  obtain ⟨m, hm, hs⟩ := isUniversal_iff.1 h
  rw [(denotes_iff hm hs).1 hn, (denotes_iff hm hs).1 hn']

/-- Instants of the calendar, and those within a day of it, have few digits. -/
theorem isWritable_of_near {n : Int}
    (h : leastInstant - microsPerDay < n ∧ n < greatestInstant + microsPerDay) :
    Text.isWritable n = true := by
  have hdigits : n.natAbs < 10 ^ 18 := by
    simp only [leastInstant, greatestInstant, microsPerDay] at h
    omega
  exact Text.isWritable_of_natAbs_lt hdigits (by decide)

/-- An instant outside the calendar is refused as out of range, in which it is shown, so that one
with too many digits has no such refusal. -/
theorem error_of_ofMicros {n : Int} (h : ¬(leastInstant ≤ n ∧ n ≤ greatestInstant)) :
    ∃ e, ofMicros n = .error e ∧
      (n.natAbs < 10 ^ Text.digitLimit ∧ e.kind = .typeMismatch ∨
        10 ^ Text.digitLimit ≤ n.natAbs ∧ e = .unwritableNumber) := by
  rw [ofMicros_eq, if_neg h]
  split_ifs with hwritable
  · exact ⟨_, rfl, .inl ⟨Text.isWritable_iff.1 hwritable, rfl⟩⟩
  · rw [Bool.not_eq_true] at hwritable
    exact ⟨_, rfl, .inr ⟨Text.isWritable_eq_false_iff.1 hwritable, rfl⟩⟩

/-- The instants from the start of year 1 to the end of year 9999. -/
def instants : Set Int := {n | leastInstant ≤ n ∧ n ≤ greatestInstant}

/-- The instants of the calendar and the accepted literals in universal time stand for each other:
each instant is written as the literal that denotes it, each literal is written for the instant it
denotes. Other numbers are refused as out of range, except those with too many digits to be shown.
-/
theorem ofMicros_bijOn (n : Int) :
    Set.BijOn ofMicros instants {x | ∃ s, x = .ok s ∧ IsUniversal s} ∧
    (n ∈ instants → ∃ s, ofMicros n = .ok s ∧ Denotes s n) ∧
    (∀ s, IsUniversal s → ∃ n', Denotes s n' ∧ ofMicros n' = .ok s) ∧
    (n ∉ instants → ∃ e, ofMicros n = .error e ∧
      (n.natAbs < 10 ^ Text.digitLimit ∧ e.kind = .typeMismatch ∨
        10 ^ Text.digitLimit ≤ n.natAbs ∧ e = .unwritableNumber)) := by
  refine ⟨⟨?mapsTo, ?injOn, ?surjOn⟩, ?writes, ?reads, ?refuses⟩
  case mapsTo =>
    intro n hn
    obtain ⟨s, hs, hutc, -⟩ := ofMicros_spec hn
    exact ⟨s, hs, hutc⟩
  case injOn =>
    intro n hn n' hn' heq
    obtain ⟨s, hs, hutc, hdenotes⟩ := ofMicros_spec hn
    obtain ⟨s', hs', -, hdenotes'⟩ := ofMicros_spec hn'
    obtain rfl : s = s' := Except.ok.inj (hs.symm.trans (heq.trans hs'))
    exact eq_of_denotes hutc hdenotes hdenotes'
  case surjOn =>
    intro x hx
    obtain ⟨s, rfl, hutc⟩ := hx
    obtain ⟨n, hn, -, hs⟩ := exists_ofMicros_of_isUniversal hutc
    exact ⟨n, hn, hs⟩
  case writes =>
    intro hn
    obtain ⟨s, hs, -, hdenotes⟩ := ofMicros_spec hn
    exact ⟨s, hs, hdenotes⟩
  case reads =>
    intro s hutc
    obtain ⟨n', -, hdenotes, hs⟩ := exists_ofMicros_of_isUniversal hutc
    exact ⟨n', hdenotes, hs⟩
  case refuses =>
    intro hn
    exact error_of_ofMicros hn

/-- The last microsecond of 1969, written and read, and the first one after the calendar. -/
theorem ofMicros_bijOn_ends :
    (∃ s, ofMicros (-1) = .ok s ∧ Denotes s (-1)) ∧
    ∃ e, ofMicros (greatestInstant + 1) = .error e ∧ e.kind = .typeMismatch := by
  have hinside : -1 ∈ instants := ⟨by decide, by decide⟩
  have houtside : greatestInstant + 1 ∉ instants := fun h => absurd h.2 (by decide)
  have hnear : (greatestInstant + 1).natAbs < 10 ^ 18 := by decide
  have hshort : (greatestInstant + 1).natAbs < 10 ^ Text.digitLimit :=
    Text.isWritable_iff.1 (Text.isWritable_of_natAbs_lt hnear (by decide))
  refine ⟨(ofMicros_bijOn (-1)).2.1 hinside, ?_⟩
  obtain ⟨e, he, ⟨-, hkind⟩ | ⟨hlong, -⟩⟩ := (ofMicros_bijOn _).2.2.2 houtside
  · exact ⟨e, he, hkind⟩
  · exact absurd hshort (Nat.not_lt.2 hlong)

/-- The least number that has too many digits to be shown is not refused as out of range. -/
theorem ofMicros_longest :
    10 ^ Text.digitLimit ∉ instants ∧
      ∃ e, ofMicros (10 ^ Text.digitLimit) = .error e ∧ e.kind ≠ .typeMismatch := by
  have houtside :
      ¬(leastInstant ≤ 10 ^ Text.digitLimit ∧ 10 ^ Text.digitLimit ≤ greatestInstant) := by
    intro h
    have hnear : leastInstant - microsPerDay < 10 ^ Text.digitLimit ∧
        10 ^ Text.digitLimit < greatestInstant + microsPerDay := by
      unfold microsPerDay
      omega
    have hwritable := isWritable_of_near hnear
    rw [Text.isWritable_pow_digitLimit] at hwritable
    cases hwritable
  refine ⟨houtside, .unwritableNumber, ?_, by decide⟩
  have hlong : ¬Text.isWritable (10 ^ Text.digitLimit) = true := by
    simp [Text.isWritable_pow_digitLimit]
  rw [ofMicros_eq, if_neg houtside, if_neg hlong]

end Timestamp
end TypedParams
