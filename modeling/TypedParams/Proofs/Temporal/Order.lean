import Mathlib.Data.String.Basic
import TypedParams.Proofs.Calendar.Order
import TypedParams.Proofs.Encoding.Acceptance
import TypedParams.Proofs.Temporal.Acceptance
import TypedParams.Proofs.Text.Order

/-! The order of literals. Main statement: the timestamps of instants are in the order of the
instants. -/
namespace TypedParams
open Text

theorem Date.literal_append_lt_iff {d e : Date} (hd : d.InWidth) (he : e.InWidth)
    {cs ds : List Char} :
    d.literal ++ cs < e.literal ++ ds ↔ d.Precedes e ∨ d = e ∧ cs < ds := by
  obtain ⟨hyear, hmonth, hday⟩ := hd
  obtain ⟨hyear', hmonth', hday'⟩ := he
  have hsame : d = e ↔ d.year = e.year ∧ d.month = e.month ∧ d.day = e.day := by
    rw [← Date.mk.injEq]
  simp only [literal, List.append_assoc, List.cons_append]
  rw [field_append_lt_iff hyear hyear', List.cons_lt_cons_self, field_append_lt_iff hmonth hmonth',
    List.cons_lt_cons_self, field_append_lt_iff hday hday', hsame, Precedes]
  tauto

theorem TimeOfDay.literal_append_lt_iff {t u : TimeOfDay} (ht : t.InWidth) (hu : u.InWidth)
    {cs ds : List Char} :
    t.literal ++ cs < u.literal ++ ds ↔ t.Precedes u ∨ t = u ∧ cs < ds := by
  obtain ⟨hhour, hminute, hsecond, hmicro⟩ := ht
  obtain ⟨hhour', hminute', hsecond', hmicro'⟩ := hu
  have hsame : t = u ↔
      t.hour = u.hour ∧ t.minute = u.minute ∧ t.second = u.second ∧ t.micro = u.micro := by
    rw [← TimeOfDay.mk.injEq]
  simp only [literal, List.append_assoc, List.cons_append]
  rw [field_append_lt_iff hhour hhour', List.cons_lt_cons_self,
    field_append_lt_iff hminute hminute', List.cons_lt_cons_self,
    field_append_lt_iff hsecond hsecond', List.cons_lt_cons_self,
    field_append_lt_iff hmicro hmicro', hsame, Precedes]
  tauto

theorem Moment.literal_append_lt_iff {m n : Moment} (hm : m.InWidth) (hn : n.InWidth)
    {cs ds : List Char} :
    m.literal ++ cs < n.literal ++ ds ↔ m.Precedes n ∨ m = n ∧ cs < ds := by
  have hsame : m = n ↔ m.date = n.date ∧ m.time = n.time := by
    rw [← Moment.mk.injEq]
  rw [literal, literal, List.append_assoc, List.append_assoc,
    Date.literal_append_lt_iff hm.1 hn.1, List.cons_append, List.cons_append,
    List.cons_lt_cons_self, TimeOfDay.literal_append_lt_iff hm.2 hn.2, hsame, Precedes]
  tauto

namespace Timestamp

theorem literal_ofInstant_lt_iff {m n : Int} (hm : leastInstant ≤ m ∧ m ≤ greatestInstant)
    (hn : leastInstant ≤ n ∧ n ≤ greatestInstant) :
    (ofInstant m).literal < (ofInstant n).literal ↔ m < n := by
  obtain ⟨hvalid, hinstant⟩ := Moment.ofInstant_spec hm
  obtain ⟨hvalid', hinstant'⟩ := Moment.ofInstant_spec hn
  have hutc : ¬Offset.utc.literal < Offset.utc.literal := List.lt_irrefl _
  calc (ofInstant m).literal < (ofInstant n).literal
    _ ↔ (Moment.ofInstant m).Precedes (Moment.ofInstant n) ∨
        Moment.ofInstant m = Moment.ofInstant n ∧ Offset.utc.literal < Offset.utc.literal :=
      Moment.literal_append_lt_iff hvalid.inWidth hvalid'.inWidth
    _ ↔ (Moment.ofInstant m).Precedes (Moment.ofInstant n) := by
      rw [or_iff_left (fun h => hutc h.2)]
    _ ↔ m < n := by rw [Moment.precedes_iff hvalid hvalid', hinstant, hinstant']

/-- Instants of the years 1 to 9999 are written, and of two of them the earlier one has the text
that comes first, character by character. -/
theorem ofMicros_lt_iff_lt {m n : Int} (hm : leastInstant ≤ m ∧ m ≤ greatestInstant)
    (hn : leastInstant ≤ n ∧ n ≤ greatestInstant) :
    ∃ s s', ofMicros m = .ok s ∧ ofMicros n = .ok s' ∧ (m < n ↔ s < s') := by
  refine ⟨_, _, ofMicros_eq_ok_iff.2 ⟨hm, rfl⟩, ofMicros_eq_ok_iff.2 ⟨hn, rfl⟩, ?_⟩
  rw [String.lt_iff_toList_lt, String.toList_ofList, String.toList_ofList,
    literal_ofInstant_lt_iff hm hn]

/-- The last microsecond of the year 999 and the first one of the year 1000. -/
theorem ofMicros_lt_iff_lt_millennium :
    ∃ s s', ofMicros (-30610224000000001) = .ok s ∧
      ofMicros (-30610224000000000) = .ok s' ∧ s < s' := by
  have hlast : leastInstant ≤ -30610224000000001 ∧ -30610224000000001 ≤ greatestInstant := by decide
  have hfirst : leastInstant ≤ -30610224000000000 ∧ -30610224000000000 ≤ greatestInstant := by
    decide
  obtain ⟨s, s', hs, hs', hlt⟩ := ofMicros_lt_iff_lt hlast hfirst
  exact ⟨s, s', hs, hs', hlt.1 (by decide)⟩

end Timestamp
end TypedParams
