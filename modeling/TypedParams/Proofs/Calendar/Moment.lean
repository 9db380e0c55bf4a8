import TypedParams.Calendar.Moment
import TypedParams.Proofs.Calendar.Date

/-! Moments of instants. Main statement: instants of the years 1 to 9999 are valid moments, at which
these instants are. -/
namespace TypedParams

theorem TimeOfDay.ofMicros_spec {n : Nat} (hn : n < microsPerDay) :
    (ofMicros n).Valid ∧ (ofMicros n).micros = n := by
  unfold microsPerDay at hn
  unfold ofMicros Valid micros
  simp only
  omega

namespace Moment

theorem ofMicros_spec {n : Nat} (hn : n < 3652059 * microsPerDay) :
    (ofMicros n).Valid ∧ (ofMicros n).micros = n := by
  have hday : n / microsPerDay < 3652059 := Nat.div_lt_of_lt_mul (by rwa [Nat.mul_comm])
  have htime : n % microsPerDay < microsPerDay := Nat.mod_lt _ (by decide)
  obtain ⟨hdate, hordinal⟩ := Date.ofOrdinal_spec hday
  obtain ⟨hclock, hmicros⟩ := TimeOfDay.ofMicros_spec htime
  refine ⟨⟨hdate, hclock⟩, ?_⟩
  rw [micros, ofMicros, hordinal, hmicros]
  exact Nat.div_add_mod' n microsPerDay

/-- An instant between the start of year 1 and the end of year 9999 is that of its moment. -/
theorem ofInstant_spec {t : Int} (ht : leastInstant ≤ t ∧ t ≤ greatestInstant) :
    (ofInstant t).Valid ∧ (ofInstant t).instant = t := by
  unfold leastInstant greatestInstant at ht
  have hepoch : (epochMicros : Int) = 62135596800000000 := rfl
  have hlast : 3652059 * microsPerDay = 315537897600000000 := rfl
  have hn : (t + epochMicros).toNat < 3652059 * microsPerDay := by omega
  obtain ⟨hvalid, hmicros⟩ := ofMicros_spec hn
  refine ⟨hvalid, ?_⟩
  rw [instant, ofInstant, hmicros]
  omega

theorem instant_epoch : epoch.instant = 0 := by
  rw [instant, epochMicros_eq, Int.sub_self]

/-- No distance from the epoch to an instant of the calendar is too large. -/
theorem plus?_epoch {t : Int} (ht : leastInstant ≤ t ∧ t ≤ greatestInstant) :
    epoch.plus? t = some (ofInstant t) := by
  have hdays : (t.fdiv microsPerDay).natAbs ≤ 999999999 := by
    unfold leastInstant greatestInstant at ht
    rw [Int.fdiv_eq_ediv_of_nonneg t (by decide), microsPerDay]
    omega
  rw [plus?, instant_epoch, Int.zero_add]
  exact if_pos ⟨hdays, ht⟩

end Moment
end TypedParams
